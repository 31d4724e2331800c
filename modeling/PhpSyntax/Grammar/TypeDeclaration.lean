import PhpSyntax.Grammar.Production

namespace PhpSyntax.Grammar

open Production

def builtInTypes : List String :=
  ["int", "float", "string", "bool", "array", "callable", "iterable", "object", "mixed", "void",
   "never", "null", "false", "true"]

def spellsAny (words : List String) (text : String) : Bool :=
  words.any (Text.sameIgnoringCase · text)

def typeName : Production Tree := do
  let c ← get
  if !c.seesKind .identifier then expected .typeName
  else if spellsAny builtInTypes c.current.text then leaf .builtInType
  else name

def typeAtom (r : Nested) : Production Tree := do
  if (← get).sees .leftParenthesis then
    let left ← token
    let first ← r.typeAtom
    let rest ← gatherPairs (·.sees .ampersand) r.typeAtom
    let right ← expect .rightParenthesis
    return .node .dnfTypeGroup [left, Tree.node .intersectionType (some first :: rest), right]
  else
    return .node .typeDeclaration [none, ← typeName]

/-- Whether an ampersand here joins two types. Before a variable it marks a reference. -/
def Cursor.seesIntersection (c : Cursor) : Bool :=
  c.sees .ampersand
    && ((c.peek 1).kind = .identifier || (c.peek 1).isPunctuator .leftParenthesis)

def typeDeclaration (r : Nested) : Production Tree := do
  if (← get).sees .query then
    let query ← token
    return .node .typeDeclaration [query, ← typeName]
  else
    let first ← typeAtom r
    let c ← get
    if c.sees .pipe then
      return .node .unionType (some first :: (← gatherPairs (·.sees .pipe) r.typeAtom))
    else if c.seesIntersection then
      return .node .intersectionType
        (some first :: (← gatherPairs (·.seesIntersection) r.typeAtom))
    else return first

def returnTypeClause (r : Nested) : Production (Option Tree) := do
  match ← eat .colon with
  | some colon => return some (.node .returnTypeClause [colon, ← typeDeclaration r])
  | none => return none

end PhpSyntax.Grammar
