import PhpSyntax.Grammar.ControlFlow
import PhpSyntax.Grammar.Declaration
import PhpSyntax.Grammar.Operator

namespace PhpSyntax.Grammar

open Production

def jumpStatement (r : Nested) (kind : Kind) : Production Tree := do
  let keyword ← token
  let value ← Production.optional (!·.seesStatementEnd) r.expression
  return .node kind [keyword, value, ← statementEnd]

def listStatement (kind : Kind) (item : Production Tree) : Production Tree := do
  let keyword ← token
  let list ← commaList .semicolon item
  return .node kind [keyword, list, ← statementEnd]

def unsetStatement (r : Nested) : Production Tree := do
  let keyword ← token
  let left ← expect .leftParenthesis
  let list ← commaList .rightParenthesis r.expression
  let right ← expect .rightParenthesis
  return .node .unsetStatement [keyword, left, list, right, ← statementEnd]

def throwStatement (r : Nested) : Production Tree := do
  let keyword ← token
  let value ← r.expression
  return .node .throwStatement [keyword, value, ← statementEnd]

def gotoStatement : Production Tree := do
  let keyword ← token
  let label ← identifier
  return .node .gotoStatement [keyword, label, ← statementEnd]

def labelStatement : Production Tree := do
  let label ← leaf .nameIdentifier
  return .node .labelStatement [label, ← token]

def declareStatement (r : Nested) : Production Tree := do
  let keyword ← token
  let left ← expect .leftParenthesis
  let directives ← commaList .rightParenthesis (constantAssignment r)
  let right ← expect .rightParenthesis
  let body ← if (← get).seesStatementEnd then statementEnd else r.statement
  return .node .declareStatement [keyword, left, directives, right, body]

def keywordStatements (r : Nested) : List (Keyword × Production Tree) :=
  [(.kwIf, ifStatement r), (.kwWhile, whileStatement r), (.kwDo, doWhileStatement r),
   (.kwFor, forStatement r), (.kwForeach, foreachStatement r), (.kwSwitch, switchStatement r),
   (.kwBreak, jumpStatement r .breakStatement), (.kwContinue, jumpStatement r .continueStatement),
   (.kwReturn, jumpStatement r .returnStatement),
   (.kwEcho, listStatement .echoStatement r.expression),
   (.kwGlobal, listStatement .globalStatement r.access),
   (.kwUnset, unsetStatement r), (.kwThrow, throwStatement r), (.kwTry, tryStatement r),
   (.kwGoto, gotoStatement), (.kwDeclare, declareStatement r),
   (.kwNamespace, namespaceStatement r), (.kwUse, useStatement),
   (.kwConst, constantDeclaration r)]

/-- Reads a statement that starts with a reserved word or a label, unless the identifier starts an
expression. -/
def keywordStatement (r : Nested) : Production (Option Tree) := do
  let c ← get
  if (c.peek 1).isPunctuator .doubleColon then return none
  else
    match ← declaration r (.node .plainList []) with
    | some tree => return some tree
    | none =>
      match (keywordStatements r).find? fun s => c.seesKeyword s.1 with
      | some (_, production) => some <$> production
      | none =>
        if c.seesKeyword .kwStatic && (c.peek 1).kind = .variableName then
          some <$> listStatement .staticStatement (initialisedVariable r)
        else if (c.peek 1).isPunctuator .colon && !c.current.isQualified then
          some <$> labelStatement
        else return none

def callStep (r : Nested) (tree : Tree) : Production (Option Tree) := do
  if (← get).sees .leftParenthesis then
    return some (.node .functionCall [tree, ← arguments r])
  else return none

def attributedStatement (r : Nested) : Production Tree := do
  let attributes ← attributes r
  match ← declaration r attributes with
  | some tree => return tree
  | none =>
    let called ← chain (callStep r) (← closure r attributes)
    return .node .expressionStatement [called, ← statementEnd]

def expressionStatement (r : Nested) : Production Tree := do
  let value ← expression r
  return .node .expressionStatement [value, ← statementEnd]

def plainStatement (r : Nested) : Production Tree := do
  let c ← get
  if c.sees .leftCurlyBrace then r.block
  else if c.sees .semicolon then leaf .emptyStatement
  else if c.sees .attributeOpen then attributedStatement r
  else expressionStatement r

def statement (r : Nested) : Production Tree := do
  match (← get).current.kind with
  | .inlineHtml | .openTag | .closeTag => leaf .inlineHtml
  | .openTagWithEcho => listStatement .echoTagStatement r.expression
  | .identifier =>
    match ← keywordStatement r with
    | some tree => return tree
    | none => plainStatement r
  | _ => plainStatement r

end PhpSyntax.Grammar
