import PhpSyntax.Grammar.Function

namespace PhpSyntax.Grammar

open Production

def memberModifiers : List Keyword :=
  [.kwPublic, .kwProtected, .kwPrivate, .kwStatic, .kwAbstract, .kwFinal, .kwReadonly, .kwVar]

def visibilities : List Keyword :=
  [.kwPublic, .kwProtected, .kwPrivate]

def constantAssignment (r : Nested) : Production Tree := do
  let label ← identifier
  let equal ← expect .equal
  return .node .variableDeclaration [label, equal, ← r.expression]

def initialisedVariable (r : Nested) : Production Tree := do
  let variableName ← variableName
  let (equal, value) ← defaultValue r
  return .node .variableDeclaration [variableName, equal, value]

def traitMethodReference : Production Tree := do
  if ((← get).peek 1).isPunctuator .doubleColon then
    let traitName ← name
    let colons ← token
    return .node .traitMethodReference [traitName, colons, ← identifier]
  else
    return .node .traitMethodReference [none, none, ← identifier]

def traitAdaptation : Production Tree := do
  let reference ← traitMethodReference
  match ← eatKeyword .kwInsteadof with
  | some insteadof =>
    let names ← nameList
    return .node .traitPrecedence [reference, insteadof, names, ← statementEnd]
  | none =>
    let asKeyword ← expectKeyword .kwAs
    let modifier ← eatIf (·.seesAnyKeyword visibilities)
    let otherName ← Production.optional (·.seesKind .identifier) identifier
    return .node .traitAlias [reference, asKeyword, modifier, otherName, ← statementEnd]

def useTraitDeclaration : Production Tree := do
  let keyword ← token
  let traits ← nameList
  if !(← get).sees .leftCurlyBrace then
    return .node .useTraitDeclaration [keyword, traits, none, none, none, ← statementEnd]
  else
    let left ← token
    let adaptations ← gatherTrees (fun c => !c.sees .rightCurlyBrace && !c.atEnd) traitAdaptation
    let right ← expect .rightCurlyBrace
    return .node .useTraitDeclaration
      [keyword, traits, left, Tree.node .plainList adaptations, right, none]

def enumCase (r : Nested) (attributes : Tree) : Production Tree := do
  let keyword ← token
  let label ← identifier
  let (equal, value) ← defaultValue r
  return .node .enumCase [attributes, keyword, label, equal, value, ← statementEnd]

def classConstant (r : Nested) (attributes modifiers : Tree) : Production Tree := do
  let keyword ← token
  let declaredType ← Production.optional (fun c => !(c.peek 1).isPunctuator .equal)
    (typeDeclaration r)
  let list ← commaList .semicolon (constantAssignment r)
  return .node .classConstantDeclaration
    [attributes, modifiers, keyword, declaredType, list, ← statementEnd]

def methodDeclaration (r : Nested) (attributes modifiers : Tree) : Production Tree := do
  let keyword ← token
  let byReference ← eat .ampersand
  let label ← identifier
  let parameters ← parameterList r
  let returnType ← returnTypeClause r
  let body ← if (← get).seesStatementEnd then statementEnd else r.block
  return .node .methodDeclaration
    [attributes, modifiers, keyword, byReference, label, parameters, returnType, body]

def propertyDeclaration (r : Nested) (attributes modifiers : Tree) : Production Tree := do
  let declaredType ← Production.optional (!·.seesKind .variableName) (typeDeclaration r)
  let properties ← commaList .semicolon (initialisedVariable r)
  return .node .classPropertyDeclaration
    [attributes, modifiers, declaredType, properties, ← statementEnd]

def classMember (r : Nested) : Production Tree := do
  if (← get).seesKeyword .kwUse then useTraitDeclaration
  else
    let attributes ← attributes r
    if (← get).seesKeyword .kwCase then enumCase r attributes
    else
      let modifiers ← modifiers memberModifiers
      let c ← get
      if c.seesKeyword .kwConst then classConstant r attributes modifiers
      else if c.seesKeyword .kwFunction then methodDeclaration r attributes modifiers
      else propertyDeclaration r attributes modifiers

structure ClassBody where
  left : Tree
  members : Tree
  right : Tree

def classBody (r : Nested) : Production ClassBody := do
  let left ← expect .leftCurlyBrace
  let members ← gatherTrees (fun c => !c.sees .rightCurlyBrace && !c.atEnd) (classMember r)
  return ⟨left, .node .plainList members, ← expect .rightCurlyBrace⟩

def extendsClause : Production (Option Tree × Option Tree) :=
  introduced (eatKeyword .kwExtends) name

def implementsClause : Production (Option Tree × Option Tree) :=
  introduced (eatKeyword .kwImplements) nameList

def anonymousClass (r : Nested) : Production Tree := do
  let attributes ← attributes r
  let keyword ← expectKeyword .kwClass
  let arguments ← Production.optional (·.sees .leftParenthesis) (arguments r)
  let (extend, parent) ← extendsClause
  let (implements, interfaces) ← implementsClause
  let body ← classBody r
  return .node .anonymousClass
    [attributes, keyword, arguments, extend, parent, implements, interfaces, body.left,
      body.members, body.right]

end PhpSyntax.Grammar
