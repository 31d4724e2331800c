import PhpSyntax.Grammar.ClassBody

namespace PhpSyntax.Grammar

open Production

def magicConstants : List String :=
  ["__LINE__", "__FILE__", "__DIR__", "__FUNCTION__", "__CLASS__", "__TRAIT__", "__METHOD__",
   "__NAMESPACE__", "__PROPERTY__"]

/-- Reads a variable whose name is the value of another, or of an expression in braces. -/
def dollarVariable (r : Nested) : Production Tree := do
  let dollar ← token
  let c ← get
  if c.sees .leftCurlyBrace then
    let left ← token
    let inner ← r.expression
    return .node .compoundVariableName [dollar, left, inner, ← expect .rightCurlyBrace]
  else if c.sees .dollar then
    return .node .variableVariable [dollar, ← r.dollarVariable]
  else
    return .node .variableVariable [dollar, ← variableName]

def memberName (r : Nested) : Production Tree := do
  let c ← get
  if c.seesKind .identifier then leaf .nameIdentifier
  else if c.seesKind .variableName then leaf .variableIdentifier
  else if c.sees .leftCurlyBrace then
    let left ← token
    let inner ← r.expression
    return .node .computedVariableName [left, inner, ← expect .rightCurlyBrace]
  else if c.sees .dollar then dollarVariable r
  else expected .memberName

def referenceValue (r : Nested) : Production Tree := do
  let ampersand ← expect .ampersand
  return .node .referenceVariable [ampersand, ← r.access]

def arrayPair (r : Nested) : Production Tree := do
  let c ← get
  if c.sees .ellipsis then
    let ellipsis ← token
    let spread := Tree.node .spreadArgument [ellipsis, ← r.expression]
    return .node .arrayPair [none, none, spread]
  else if c.sees .ampersand then
    return .node .arrayPair [none, none, ← referenceValue r]
  else
    let first ← r.expression
    match ← eat .doubleArrow with
    | none => return .node .arrayPair [none, none, first]
    | some arrow =>
      let value ← if (← get).sees .ampersand then referenceValue r else r.expression
      return .node .arrayPair [first, arrow, value]

def arrayCall (r : Nested) (kind : Kind) (allowEmpty : Bool) : Production Tree := do
  let keyword ← token
  let left ← token
  let list ← separatedList .rightParenthesis allowEmpty (arrayPair r)
  return .node kind [keyword, left, list, ← expect .rightParenthesis]

def matchArm (r : Nested) : Production Tree := do
  let c ← get
  if c.seesKeyword .kwDefault && !(c.peek 1).isPunctuator .doubleColon then
    let keyword ← token
    let arrow ← expect .doubleArrow
    return .node .matchDefaultClause [keyword, arrow, ← r.expression]
  else
    let conditions ← commaList .doubleArrow r.expression
    let arrow ← expect .doubleArrow
    return .node .matchConditionClause [conditions, arrow, ← r.expression]

def matchExpression (r : Nested) : Production Tree := do
  let keyword ← token
  let left ← expect .leftParenthesis
  let subject ← r.expression
  let right ← expect .rightParenthesis
  let leftBrace ← expect .leftCurlyBrace
  let arms ← commaList .rightCurlyBrace (matchArm r)
  return .node .matchExpression
    [keyword, left, subject, right, leftBrace, arms, ← expect .rightCurlyBrace]

def classReferenceStep (r : Nested) (tree : Tree) : Production (Option Tree) := do
  let c ← get
  if c.sees .arrow then
    let arrow ← token
    return some (.node .objectMemberAccess [tree, arrow, ← memberName r])
  else if c.sees .nullsafeArrow then
    let arrow ← token
    return some (.node .nullsafeObjectMemberAccess [tree, arrow, ← memberName r])
  else if c.sees .doubleColon then
    let colons ← token
    return some (.node .classMemberAccess [tree, colons, ← variableName])
  else if c.sees .leftBracket then
    let left ← token
    let offset ← r.expression
    return some (.node .arrayAccess [tree, left, offset, ← expect .rightBracket])
  else return none

/-- Reads the class to create: a name, an expression in parentheses, or a variable with accesses
but without calls. -/
def classReference (r : Nested) : Production Tree := do
  let c ← get
  if c.sees .leftParenthesis then r.parenthesised
  else if c.seesKind .identifier then name
  else
    let first ← if c.sees .dollar then dollarVariable r else variableName
    chain (classReferenceStep r) first

def newExpression (r : Nested) : Production Tree := do
  let keyword ← token
  let c ← get
  if c.seesKeyword .kwClass || c.sees .attributeOpen then
    return .node .newExpression [keyword, ← anonymousClass r]
  else
    let reference ← classReference r
    if (← get).sees .leftParenthesis then
      let call := Tree.node .functionCall [reference, ← arguments r]
      return .node .newExpression [keyword, call]
    else
      return .node .newExpression [keyword, reference]

def Cursor.seesClosure (c : Cursor) : Bool :=
  c.seesKeyword .kwFunction || c.seesKeyword .kwFn
    || (c.seesKeyword .kwStatic
      && ((c.peek 1).isKeyword .kwFunction || (c.peek 1).isKeyword .kwFn))

def identifierExpression (r : Nested) : Production Tree := do
  let c ← get
  let text := c.current.text
  let called := (c.peek 1).isPunctuator .leftParenthesis
  if spellsAny ["true", "false"] text then leaf .booleanLiteral
  else if spellsAny ["null"] text then leaf .nullLiteral
  else if spellsAny magicConstants text then leaf .magicConstant
  else if c.seesKeyword .kwArray && called then arrayCall r .arrayInitializerFunction false
  else if c.seesKeyword .kwList && called then arrayCall r .listExpression true
  else if c.seesKeyword .kwMatch && called then matchExpression r
  else if c.seesKeyword .kwNew then newExpression r
  else if c.seesClosure then closure r (.node .plainList [])
  else name

def punctuatorExpression (r : Nested) : Production Tree := do
  let c ← get
  if c.sees .leftParenthesis then r.parenthesised
  else if c.sees .leftBracket then
    let left ← token
    let list ← separatedList .rightBracket true (arrayPair r)
    return .node .arrayInitializerBracket [left, list, ← expect .rightBracket]
  else if c.sees .dollar then dollarVariable r
  else if c.sees .attributeOpen then closure r (← attributes r)
  else unexpected .expression

def primary (r : Nested) : Production Tree := do
  match (← get).current.kind with
  | .variableName => leaf .variableIdentifier
  | .integer => leaf .integerLiteral
  | .float => leaf .floatLiteral
  | .singleQuotedString | .doubleQuotedString => leaf .regularStringLiteral
  | .expandableString => leaf .expandableStringLiteral
  | .heredoc => leaf .heredocLiteral
  | .nowdoc => leaf .nowdocLiteral
  | .shellCommand => leaf .executionOperator
  | .identifier => identifierExpression r
  | .punctuator => punctuatorExpression r
  | _ => unexpected .expression

def accessStep (r : Nested) (tree : Tree) : Production (Option Tree) := do
  let c ← get
  if c.sees .leftBracket then
    let left ← token
    let offset ← Production.optional (!·.sees .rightBracket) r.expression
    return some (.node .arrayAccess [tree, left, offset, ← expect .rightBracket])
  else if c.sees .leftParenthesis then
    return some (.node .functionCall [tree, ← arguments r])
  else if c.sees .arrow then
    let arrow ← token
    return some (.node .objectMemberAccess [tree, arrow, ← memberName r])
  else if c.sees .nullsafeArrow then
    let arrow ← token
    return some (.node .nullsafeObjectMemberAccess [tree, arrow, ← memberName r])
  else if c.sees .doubleColon then
    let colons ← token
    return some (.node .classMemberAccess [tree, colons, ← memberName r])
  else if c.sees .increment then
    return some (.node .postfixIncrement [tree, ← token])
  else if c.sees .decrement then
    return some (.node .postfixDecrement [tree, ← token])
  else return none

def access (r : Nested) : Production Tree := do
  chain (accessStep r) (← primary r)

end PhpSyntax.Grammar
