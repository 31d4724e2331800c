import PhpSyntax.Grammar.Call
import PhpSyntax.Grammar.TypeDeclaration

namespace PhpSyntax.Grammar

open Production

def promotionModifiers : List Keyword :=
  [.kwPublic, .kwProtected, .kwPrivate, .kwReadonly]

def defaultValue (r : Nested) : Production (Option Tree × Option Tree) :=
  introduced (eat .equal) r.expression

def Cursor.seesParameterName (c : Cursor) : Bool :=
  c.seesKind .variableName || c.sees .ampersand || c.sees .ellipsis

def parameter (r : Nested) : Production Tree := do
  let attributes ← attributes r
  let modifiers ← modifiers promotionModifiers
  let declaredType ← Production.optional (!·.seesParameterName) (typeDeclaration r)
  let byReference ← eat .ampersand
  let ellipsis ← eat .ellipsis
  let variableName ← variableName
  let (equal, value) ← defaultValue r
  return .node .parameter
    [attributes, modifiers, declaredType, byReference, ellipsis, variableName, equal, value]

def parameterList (r : Nested) : Production Tree := do
  let left ← expect .leftParenthesis
  let list ← commaList .rightParenthesis (parameter r)
  return .node .parameterList [left, list, ← expect .rightParenthesis]

def functionDeclaration (r : Nested) (attributes : Tree) : Production Tree := do
  let keyword ← expectKeyword .kwFunction
  let byReference ← eat .ampersand
  let label ← identifier
  let parameters ← parameterList r
  let returnType ← returnTypeClause r
  return .node .functionDeclaration
    [attributes, keyword, byReference, label, parameters, returnType, ← r.block]

def capturedVariable : Production Tree := do
  if (← get).sees .ampersand then
    let ampersand ← token
    return .node .referenceVariable [ampersand, ← variableName]
  else variableName

def lexicalVariables : Production Tree := do
  let keyword ← token
  let left ← expect .leftParenthesis
  let list ← commaList .rightParenthesis capturedVariable
  return .node .lexicalVariables [keyword, left, list, ← expect .rightParenthesis]

def arrowFunction (r : Nested) (attributes : Tree) (modifier : Option Tree) :
    Production Tree := do
  let keyword ← token
  let byReference ← eat .ampersand
  let parameters ← parameterList r
  let returnType ← returnTypeClause r
  let arrow ← expect .doubleArrow
  return .node .arrowFunctionExpression
    [attributes, modifier, keyword, byReference, parameters, returnType, arrow, ← r.expression]

def closure (r : Nested) (attributes : Tree) : Production Tree := do
  let modifier ← eatKeyword .kwStatic
  if (← get).seesKeyword .kwFn then arrowFunction r attributes modifier
  else
    let keyword ← expectKeyword .kwFunction
    let byReference ← eat .ampersand
    let parameters ← parameterList r
    let captured ← Production.optional (·.seesKeyword .kwUse) lexicalVariables
    let returnType ← returnTypeClause r
    return .node .functionExpression
      [attributes, modifier, keyword, byReference, parameters, captured, returnType, ← r.block]

end PhpSyntax.Grammar
