import PhpSyntax.Grammar.Operand

namespace PhpSyntax

/-- The level of the conditional and the binary operators. Powers have none: they bind to the
operand on their left before anything else. -/
def Kind.level? : Kind → Option Nat
  | .alternativeConditionalOr => some 1
  | .alternativeConditionalXor => some 2
  | .alternativeConditionalAnd => some 3
  | .conditionalExpression => some 5
  | .nullCoalescing => some 6
  | .conditionalOr => some 7
  | .conditionalAnd => some 8
  | .bitwiseOr => some 9
  | .bitwiseXor => some 10
  | .bitwiseAnd => some 11
  | .equalTo | .notEqualTo | .strictEqualTo | .strictNotEqualTo | .spaceship => some 12
  | .lessThan | .greaterThan | .lessThanOrEqualTo | .greaterThanOrEqualTo => some 13
  | .concatenation => some 14
  | .leftShift | .rightShift => some 15
  | .plus | .minus => some 16
  | .multiply | .divide | .remainder => some 17
  | .instanceof => some 18
  | _ => none

namespace Grammar

open Production

/-- The level of the operand of an assignment or of a word such as `print`. -/
def assignmentLevel : Nat := 4

/-- The level of the operand of a negation. -/
def instanceofLevel : Nat := 18

def operatorKind? : Punctuator → Option Kind
  | .query => some .conditionalExpression
  | .coalesce => some .nullCoalescing
  | .orOr => some .conditionalOr
  | .andAnd => some .conditionalAnd
  | .pipe => some .bitwiseOr
  | .caret => some .bitwiseXor
  | .ampersand => some .bitwiseAnd
  | .equalEqual => some .equalTo
  | .notEqual | .lessGreater => some .notEqualTo
  | .strictEqual => some .strictEqualTo
  | .strictNotEqual => some .strictNotEqualTo
  | .spaceship => some .spaceship
  | .lessThan => some .lessThan
  | .greaterThan => some .greaterThan
  | .lessEqual => some .lessThanOrEqualTo
  | .greaterEqual => some .greaterThanOrEqualTo
  | .dot => some .concatenation
  | .shiftLeft => some .leftShift
  | .shiftRight => some .rightShift
  | .plus => some .plus
  | .minus => some .minus
  | .star => some .multiply
  | .slash => some .divide
  | .percent => some .remainder
  | _ => none

def operatorWords : List (Keyword × Kind) :=
  [(.kwOr, .alternativeConditionalOr), (.kwXor, .alternativeConditionalXor),
   (.kwAnd, .alternativeConditionalAnd), (.kwInstanceof, .instanceof)]

/-- The expression that the operator here makes with the operand before it, and its level. -/
def Cursor.operator? (c : Cursor) : Option (Kind × Nat) := do
  let kind ←
    match c.current.kind with
    | .punctuator => (Punctuator.all.find? c.sees).bind operatorKind?
    | .identifier => (operatorWords.find? fun w => c.seesKeyword w.1).map (·.2)
    | _ => none
  return (kind, ← kind.level?)

def prefixKinds : List (Punctuator × Kind) :=
  [(.minus, .unaryMinus), (.plus, .unaryPlus), (.tilde, .bitwiseComplement),
   (.atSign, .errorControl), (.increment, .prefixIncrement), (.decrement, .prefixDecrement)]

def compoundAssignments : List Punctuator :=
  [.plusEqual, .minusEqual, .starEqual, .slashEqual, .dotEqual, .percentEqual, .starStarEqual,
   .ampersandEqual, .pipeEqual, .caretEqual, .shiftLeftEqual, .shiftRightEqual, .coalesceEqual]

def yieldTerminators : List Punctuator :=
  [.semicolon, .rightParenthesis, .rightBracket, .comma]

def isAssignable : Kind → Bool
  | .variableIdentifier | .arrayAccess | .objectMemberAccess | .nullsafeObjectMemberAccess
  | .classMemberAccess | .variableVariable | .compoundVariableName | .listExpression
  | .arrayInitializerBracket => true
  | _ => false

def prefixed (r : Nested) (kind : Kind) : Production Tree := do
  let op ← token
  return .node kind [op, ← r.unary]

def keywordOperand (r : Nested) (kind : Kind) : Production Tree := do
  let keyword ← token
  return .node kind [keyword, ← r.binary assignmentLevel]

def yieldExpression (r : Nested) : Production Tree := do
  let keyword ← token
  let c ← get
  if c.seesKeyword .kwFrom then
    let source ← token
    return .node .yieldFromExpression [keyword, source, ← r.binary assignmentLevel]
  else if c.seesAny yieldTerminators || c.seesKind .closeTag then
    return .node .yieldExpression [keyword, none, none, none]
  else
    let first ← r.binary assignmentLevel
    match ← eat .doubleArrow with
    | some arrow =>
      return .node .yieldExpression [keyword, first, arrow, ← r.binary assignmentLevel]
    | none => return .node .yieldExpression [keyword, none, none, first]

/-- Reads a power or an assignment whose left side is the tree, if one follows. -/
def afterAccess (r : Nested) (tree : Tree) : Production Tree := do
  let c ← get
  if c.sees .starStar then
    let op ← token
    return .node .power [tree, op, ← r.unary]
  else if !isAssignable tree.kind then return tree
  else if c.sees .equal then
    let op ← token
    match ← eat .ampersand with
    | some ampersand =>
      return .node .assignmentByReference [tree, op, ampersand, ← r.binary assignmentLevel]
    | none => return .node .assignment [tree, op, ← r.binary assignmentLevel]
  else if c.seesAny compoundAssignments then
    let op ← token
    return .node .compoundAssignment [tree, op, ← r.binary assignmentLevel]
  else return tree

def Cursor.prefixKind? (c : Cursor) : Option Kind :=
  match c.current.kind with
  | .cast => some .castExpression
  | .punctuator => (prefixKinds.find? fun p => c.sees p.1).map (·.2)
  | .identifier => if c.seesKeyword .kwClone then some .cloneExpression else none
  | _ => none

def Cursor.operandKind? (c : Cursor) : Option Kind :=
  if c.seesKeyword .kwPrint then some .printExpression
  else if c.seesKeyword .kwThrow then some .throwExpression
  else if c.seesAnyKeyword [.kwInclude, .kwIncludeOnce, .kwRequire, .kwRequireOnce] then
    some .includeExpression
  else none

def unary (r : Nested) : Production Tree := do
  let c ← get
  match c.prefixKind?, c.operandKind? with
  | some kind, _ => prefixed r kind
  | none, some kind => keywordOperand r kind
  | none, none =>
    if c.sees .bang then
      let op ← token
      return .node .logicalComplement [op, ← r.binary instanceofLevel]
    else if c.seesKeyword .kwYield then yieldExpression r
    else afterAccess r (← access r)

def conditional (r : Nested) (condition : Tree) (level : Nat) : Production Tree := do
  let query ← token
  let consequent ← Production.optional (!·.sees .colon) r.expression
  let colon ← expect .colon
  return .node .conditionalExpression
    [condition, query, consequent, colon, ← r.binary (level + 1)]

/-- Reads an operator and its right operand, if an operator of this level or above follows. Only
the null coalescing operator groups to the right. -/
def operatorStep (r : Nested) (minLevel : Nat) (left : Tree) : Production (Option Tree) := do
  match (← get).operator? with
  | none => return none
  | some (kind, level) =>
    if level < minLevel then return none
    else if kind = .conditionalExpression then some <$> conditional r left level
    else
      let op ← token
      let rightLevel := if kind = .nullCoalescing then level else level + 1
      return some (.node kind [left, op, ← r.binary rightLevel])

/-- Reads an expression whose operators have at least this level. -/
def binary (r : Nested) (minLevel : Nat) : Production Tree := do
  chain (operatorStep r minLevel) (← unary r)

def expression (r : Nested) : Production Tree :=
  binary r 0

end Grammar

end PhpSyntax
