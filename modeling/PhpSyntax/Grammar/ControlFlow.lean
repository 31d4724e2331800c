import PhpSyntax.Grammar.Operand

/-!
Conditions, loops, switches and exception handlers. Most of them have a second form, with a colon
in place of the opening brace and a reserved word in place of the closing one.
-/

namespace PhpSyntax.Grammar

open Production

def alternativeBody (r : Nested) (ends : List Keyword) : Production Tree :=
  r.statements (·.seesAnyKeyword ends)

def conditionEnds : List Keyword :=
  [.kwElseif, .kwElse, .kwEndif]

def alternativeElseif (r : Nested) : Production Tree := do
  let keyword ← token
  let condition ← r.parenthesised
  let colon ← expect .colon
  return .node .alternativeElseifClause
    [keyword, condition, colon, ← alternativeBody r conditionEnds]

def alternativeElse (r : Nested) : Production Tree := do
  let keyword ← token
  let colon ← expect .colon
  return .node .alternativeElseClause [keyword, colon, ← alternativeBody r [.kwEndif]]

def alternativeIf (r : Nested) (keyword condition colon : Tree) : Production Tree := do
  let body ← alternativeBody r conditionEnds
  let elseifs ← gatherTrees (·.seesKeyword .kwElseif) (alternativeElseif r)
  let otherwise ← Production.optional (·.seesKeyword .kwElse) (alternativeElse r)
  let close ← expectKeyword .kwEndif
  return .node .alternativeIfStatement
    [keyword, condition, colon, body, Tree.node .plainList elseifs, otherwise, close,
      ← statementEnd]

def elseif (r : Nested) : Production Tree := do
  let keyword ← token
  let condition ← r.parenthesised
  return .node .elseifClause [keyword, condition, ← r.statement]

def elseClause (r : Nested) : Production Tree := do
  let keyword ← token
  return .node .elseClause [keyword, ← r.statement]

def ifStatement (r : Nested) : Production Tree := do
  let keyword ← token
  let condition ← r.parenthesised
  match ← eat .colon with
  | some colon => alternativeIf r keyword condition colon
  | none =>
    let body ← r.statement
    let elseifs ← gatherTrees (·.seesKeyword .kwElseif) (elseif r)
    let otherwise ← Production.optional (·.seesKeyword .kwElse) (elseClause r)
    return .node .ifStatement
      [keyword, condition, body, Tree.node .plainList elseifs, otherwise]

def whileStatement (r : Nested) : Production Tree := do
  let keyword ← token
  let condition ← r.parenthesised
  match ← eat .colon with
  | some colon =>
    let body ← alternativeBody r [.kwEndwhile]
    let close ← expectKeyword .kwEndwhile
    return .node .alternativeWhileStatement
      [keyword, condition, colon, body, close, ← statementEnd]
  | none => return .node .whileStatement [keyword, condition, ← r.statement]

def doWhileStatement (r : Nested) : Production Tree := do
  let keyword ← token
  let body ← r.statement
  let whileKeyword ← expectKeyword .kwWhile
  let condition ← r.parenthesised
  return .node .doWhileStatement [keyword, body, whileKeyword, condition, ← statementEnd]

def forStatement (r : Nested) : Production Tree := do
  let keyword ← token
  let left ← expect .leftParenthesis
  let start ← commaList .semicolon r.expression
  let firstSemicolon ← expect .semicolon
  let condition ← commaList .semicolon r.expression
  let secondSemicolon ← expect .semicolon
  let step ← commaList .rightParenthesis r.expression
  let right ← expect .rightParenthesis
  match ← eat .colon with
  | some colon =>
    let body ← alternativeBody r [.kwEndfor]
    let close ← expectKeyword .kwEndfor
    return .node .alternativeForStatement
      [keyword, left, start, firstSemicolon, condition, secondSemicolon, step, right, colon, body,
        close, ← statementEnd]
  | none =>
    return .node .forStatement
      [keyword, left, start, firstSemicolon, condition, secondSemicolon, step, right,
        ← r.statement]

def foreachTarget (r : Nested) : Production Tree := do
  if (← get).sees .ampersand then referenceValue r else r.access

def foreachTargets (r : Nested) : Production (Option Tree × Option Tree × Tree) := do
  let first ← foreachTarget r
  match ← eat .doubleArrow with
  | some arrow => return (some first, some arrow, ← foreachTarget r)
  | none => return (none, none, first)

def foreachStatement (r : Nested) : Production Tree := do
  let keyword ← token
  let left ← expect .leftParenthesis
  let subject ← r.expression
  let asKeyword ← expectKeyword .kwAs
  let (key, arrow, value) ← foreachTargets r
  let right ← expect .rightParenthesis
  match ← eat .colon with
  | some colon =>
    let body ← alternativeBody r [.kwEndforeach]
    let close ← expectKeyword .kwEndforeach
    return .node .alternativeForeachStatement
      [keyword, left, subject, asKeyword, key, arrow, value, right, colon, body, close,
        ← statementEnd]
  | none =>
    return .node .foreachStatement
      [keyword, left, subject, asKeyword, key, arrow, value, right, ← r.statement]

def caseSeparator : Production Tree :=
  leafIf (fun c => c.sees .colon || c.sees .semicolon) .token (.punctuator .colon)

def switchClause (r : Nested) (stop : Cursor → Bool) : Production Tree := do
  let clauseEnd := fun (c : Cursor) => stop c || c.seesAnyKeyword [.kwCase, .kwDefault]
  let c ← get
  if c.seesKeyword .kwCase then
    let keyword ← token
    let value ← r.expression
    let separator ← caseSeparator
    return .node .caseClause [keyword, value, separator, ← r.statements clauseEnd]
  else if c.seesKeyword .kwDefault then
    let keyword ← token
    let separator ← caseSeparator
    return .node .defaultClause [keyword, separator, ← r.statements clauseEnd]
  else expected .caseOrDefault

def switchClauses (r : Nested) (stop : Cursor → Bool) : Production Tree := do
  return .node .plainList (← gatherTrees (fun c => !stop c && !c.atEnd) (switchClause r stop))

def switchStatement (r : Nested) : Production Tree := do
  let keyword ← token
  let subject ← r.parenthesised
  match ← eat .colon with
  | some colon =>
    let clauses ← switchClauses r (·.seesKeyword .kwEndswitch)
    let close ← expectKeyword .kwEndswitch
    return .node .alternativeSwitchStatement
      [keyword, subject, colon, clauses, close, ← statementEnd]
  | none =>
    let left ← expect .leftCurlyBrace
    let clauses ← switchClauses r (·.sees .rightCurlyBrace)
    return .node .switchStatement [keyword, subject, left, clauses, ← expect .rightCurlyBrace]

def catchBlock (r : Nested) : Production Tree := do
  let keyword ← token
  let left ← expect .leftParenthesis
  let types ← delimited .pipe name
  let variableName ← Production.optional (·.seesKind .variableName) variableName
  let right ← expect .rightParenthesis
  return .node .catchBlock [keyword, left, types, variableName, right, ← r.block]

def finallyClause (r : Nested) : Production Tree := do
  let keyword ← token
  return .node .finallyClause [keyword, ← r.block]

def tryStatement (r : Nested) : Production Tree := do
  let keyword ← token
  let body ← r.block
  let catches ← gatherTrees (·.seesKeyword .kwCatch) (catchBlock r)
  let last ← Production.optional (·.seesKeyword .kwFinally) (finallyClause r)
  if catches.isEmpty && last.isNone then expected .catchOrFinally
  else return .node .tryStatement [keyword, body, Tree.node .plainList catches, last]

end PhpSyntax.Grammar
