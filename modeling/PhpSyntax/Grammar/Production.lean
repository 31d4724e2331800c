import PhpSyntax.Grammar.Cursor
import PhpSyntax.Tree.Basic

/-!
Productions of the grammar: they read tokens from a cursor and build trees, or fail. Loops run at
most once for each token that is left, which is enough because each round reads one.
-/

namespace PhpSyntax.Grammar

abbrev Production (α : Type) := StateT Cursor (Except SyntaxError) α

abbrev Slots := List (Option Tree)

namespace Production

def expected {α : Type} (what : Expectation) : Production α := do
  throw ((← get).expectedError what)

def unexpected {α : Type} (what : Expectation) : Production α := do
  throw ((← get).unexpectedError what)

def leaf (kind : Kind) : Production Tree := do
  let c ← get
  set c.next
  return .leaf kind c.current

def token : Production Tree :=
  leaf .token

def leafIf (accept : Cursor → Bool) (kind : Kind) (what : Expectation) : Production Tree := do
  if accept (← get) then leaf kind else expected what

def eatIf (accept : Cursor → Bool) : Production (Option Tree) := do
  if accept (← get) then some <$> token else return none

def eat (p : Punctuator) : Production (Option Tree) :=
  eatIf (·.sees p)

def eatKeyword (k : Keyword) : Production (Option Tree) :=
  eatIf (·.seesKeyword k)

def expect (p : Punctuator) : Production Tree :=
  leafIf (·.sees p) .token (.punctuator p)

def expectKeyword (k : Keyword) : Production Tree :=
  leafIf (·.seesKeyword k) .token (.keyword k)

def variableName : Production Tree :=
  leafIf (·.seesKind .variableName) .variableIdentifier .variableName

def identifier : Production Tree :=
  leafIf (·.seesKind .identifier) .nameIdentifier .identifier

def name : Production Tree := do
  let kind := if (← get).current.isQualified then Kind.namespaceName else Kind.nameIdentifier
  leafIf (·.seesKind .identifier) kind .name

def statementEnd : Production Tree :=
  leafIf (·.seesStatementEnd) .token (.punctuator .semicolon)

def optional (accept : Cursor → Bool) (p : Production Tree) : Production (Option Tree) := do
  if accept (← get) then some <$> p else return none

def introduced (intro : Production (Option Tree)) (body : Production Tree) :
    Production (Option Tree × Option Tree) := do
  match ← intro with
  | some t => return (some t, some (← body))
  | none => return (none, none)

/-- Collects the slots of at most `rounds` runs of `item`, as long as `more` holds. -/
def gatherUpTo (more : Cursor → Bool) (item : Production Slots) : Nat → Production Slots
  | 0 => return []
  | rounds + 1 => do
    if more (← get) then
      let slots ← item
      return slots ++ (← gatherUpTo more item rounds)
    else return []

def gather (more : Cursor → Bool) (item : Production Slots) : Production Slots := do
  gatherUpTo more item (← get).remaining

def gatherTrees (more : Cursor → Bool) (item : Production Tree) : Production Slots :=
  gather more do return [some (← item)]

/-- Extends a tree at most `rounds` times, as long as `step` has an extension. -/
def chainUpTo (step : Tree → Production (Option Tree)) : Nat → Tree → Production Tree
  | 0, tree => return tree
  | rounds + 1, tree => do
    match ← step tree with
    | some larger => chainUpTo step rounds larger
    | none => return tree

def chain (step : Tree → Production (Option Tree)) (tree : Tree) : Production Tree := do
  chainUpTo step (← get).remaining tree

def commaSlots (close : Punctuator) (allowEmpty : Bool) (element : Production Tree) :
    Nat → Production Slots
  | 0 => return []
  | rounds + 1 => do
    let c ← get
    if c.sees close || c.atEnd then return []
    else if allowEmpty && c.sees .comma then
      let comma ← token
      return none :: some comma :: (← commaSlots close allowEmpty element rounds)
    else
      let tree ← element
      match ← eat .comma with
      | some comma =>
        return some tree :: some comma :: (← commaSlots close allowEmpty element rounds)
      | none => return [some tree]

/-- Reads elements with commas between them up to the punctuator `close`, which is left. A comma
may come last; where `allowEmpty` is set, elements may be missing. -/
def separatedList (close : Punctuator) (allowEmpty : Bool) (element : Production Tree) :
    Production Tree := do
  return .node .separatedList (← commaSlots close allowEmpty element (← get).remaining)

def commaList (close : Punctuator) (element : Production Tree) : Production Tree :=
  separatedList close false element

def gatherPairs (more : Cursor → Bool) (element : Production Tree) : Production Slots :=
  gather more do return [some (← token), some (← element)]

/-- Reads one or more elements with separators between them and none at the end. -/
def delimited (separator : Punctuator) (element : Production Tree) : Production Tree := do
  let first ← element
  return .node .separatedList (some first :: (← gatherPairs (·.sees separator) element))

def nameList : Production Tree :=
  delimited .comma name

def modifiers (allowed : List Keyword) : Production Tree := do
  return .node .plainList (← gatherTrees (·.seesAnyKeyword allowed) token)

end Production

/-- The productions that occur inside others. A production calls them only after it has read a
token, so that they stand for the same productions on a shorter stream. -/
structure Nested where
  statement : Production Tree
  /-- An expression whose operators bind at least as strongly as a level. -/
  binary : Nat → Production Tree
  unary : Production Tree
  /-- An expression with accesses and calls, but without operators. -/
  access : Production Tree
  /-- A variable whose name is computed. -/
  dollarVariable : Production Tree
  /-- A single type, or several in parentheses. -/
  typeAtom : Production Tree

def Nested.expression (r : Nested) : Production Tree :=
  r.binary 0

def Nested.statements (r : Nested) (stop : Cursor → Bool) : Production Tree := do
  return .node .plainList
    (← Production.gatherTrees (fun c => !stop c && !c.atEnd) r.statement)

def Nested.block (r : Nested) : Production Tree := do
  let left ← .expect .leftCurlyBrace
  let body ← r.statements (·.sees .rightCurlyBrace)
  let right ← .expect .rightCurlyBrace
  return .node .block [left, body, right]

def Nested.parenthesised (r : Nested) : Production Tree := do
  let left ← .expect .leftParenthesis
  let inner ← r.expression
  let right ← .expect .rightParenthesis
  return .node .parenthesisedExpression [left, inner, right]

end PhpSyntax.Grammar
