import PhpSyntax.Grammar.ClassBody

namespace PhpSyntax.Grammar

open Production

def classModifiers : List Keyword :=
  [.kwAbstract, .kwFinal, .kwReadonly]

/-- Reads a namespace, which holds either the statements in its braces or the rest of the file. -/
def namespaceStatement (r : Nested) : Production Tree := do
  let keyword ← token
  let label ← Production.optional (·.seesKind .identifier) name
  if (← get).sees .leftCurlyBrace then
    let left ← token
    let body ← r.statements (·.sees .rightCurlyBrace)
    let right ← expect .rightCurlyBrace
    return .node .namespaceStatement [keyword, label, none, left, body, right]
  else
    return .node .namespaceStatement [keyword, label, ← statementEnd, none, none, none]

def importType : Production (Option Tree) :=
  eatIf fun c =>
    c.seesAnyKeyword [.kwFunction, .kwConst] && (c.peek 1).kind = .identifier

def useClause (importType : Option Tree) (label : Tree) : Production Tree := do
  let (asKeyword, otherName) ← introduced (eatKeyword .kwAs) identifier
  return .node .useClause [importType, label, asKeyword, otherName]

def plainUseClause : Production Tree := do
  useClause none (← name)

def typedUseClause : Production Tree := do
  let kind ← importType
  useClause kind (← name)

def useStatement : Production Tree := do
  let keyword ← token
  let kind ← importType
  let first ← name
  let c ← get
  if c.sees .nsSeparator && (c.peek 1).isPunctuator .leftCurlyBrace then
    let separator ← token
    let left ← token
    let clauses ← commaList .rightCurlyBrace typedUseClause
    let right ← expect .rightCurlyBrace
    return .node .groupUseStatement
      [keyword, kind, first, separator, left, clauses, right, ← statementEnd]
  else
    let clause ← useClause none first
    let rest ← gatherPairs (·.sees .comma) plainUseClause
    return .node .useStatement
      [keyword, kind, Tree.node .separatedList (some clause :: rest), ← statementEnd]

def constantDeclaration (r : Nested) : Production Tree := do
  let keyword ← token
  let list ← commaList .semicolon (constantAssignment r)
  return .node .constantDeclaration [keyword, list, ← statementEnd]

def classDeclaration (r : Nested) (attributes : Tree) : Production Tree := do
  let modifiers ← modifiers classModifiers
  let keyword ← expectKeyword .kwClass
  let label ← identifier
  let (extend, parent) ← extendsClause
  let (implements, interfaces) ← implementsClause
  let body ← classBody r
  return .node .classDeclaration
    [attributes, modifiers, keyword, label, extend, parent, implements, interfaces, body.left,
      body.members, body.right]

def interfaceDeclaration (r : Nested) (attributes : Tree) : Production Tree := do
  let keyword ← token
  let label ← identifier
  let (extend, parents) ← introduced (eatKeyword .kwExtends) nameList
  let body ← classBody r
  return .node .interfaceDeclaration
    [attributes, keyword, label, extend, parents, body.left, body.members, body.right]

def traitDeclaration (r : Nested) (attributes : Tree) : Production Tree := do
  let keyword ← token
  let label ← identifier
  let body ← classBody r
  return .node .traitDeclaration
    [attributes, keyword, label, body.left, body.members, body.right]

def enumDeclaration (r : Nested) (attributes : Tree) : Production Tree := do
  let keyword ← token
  let label ← identifier
  let (colon, backing) ← introduced (eat .colon) (typeDeclaration r)
  let (implements, interfaces) ← implementsClause
  let body ← classBody r
  return .node .enumDeclaration
    [attributes, keyword, label, colon, backing, implements, interfaces, body.left, body.members,
      body.right]

def Cursor.seesFunctionDeclaration (c : Cursor) : Bool :=
  c.seesKeyword .kwFunction
    && ((c.peek 1).kind = .identifier
      || ((c.peek 1).isPunctuator .ampersand && (c.peek 2).kind = .identifier))

def Cursor.classModifierCount (c : Cursor) : Nat :=
  ((c.current :: c.ahead).takeWhile (·.isKeywordIn classModifiers)).length

def declaration (r : Nested) (attributes : Tree) : Production (Option Tree) := do
  let c ← get
  let offset := c.classModifierCount
  let named := (c.peek 1).kind = .identifier
  if c.seesFunctionDeclaration then some <$> functionDeclaration r attributes
  else if (c.peek offset).isKeyword .kwClass && (c.peek (offset + 1)).kind = .identifier then
    some <$> classDeclaration r attributes
  else if 0 < offset then return none
  else if c.seesKeyword .kwInterface && named then some <$> interfaceDeclaration r attributes
  else if c.seesKeyword .kwTrait && named then some <$> traitDeclaration r attributes
  else if c.seesKeyword .kwEnum && named then some <$> enumDeclaration r attributes
  else return none

end PhpSyntax.Grammar
