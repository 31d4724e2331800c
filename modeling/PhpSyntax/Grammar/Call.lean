import PhpSyntax.Grammar.Production

namespace PhpSyntax.Grammar

open Production

def argument (r : Nested) : Production Tree := do
  let c ← get
  if c.seesKind .identifier && (c.peek 1).isPunctuator .colon then
    let label ← leaf .nameIdentifier
    let colon ← token
    return .node .callArgument [label, colon, ← r.expression]
  else if c.sees .ellipsis then
    let ellipsis ← token
    let value := Tree.node .spreadArgument [ellipsis, ← r.expression]
    return .node .callArgument [none, none, value]
  else
    return .node .callArgument [none, none, ← r.expression]

/-- Reads arguments in parentheses, or the three dots that only name the function. -/
def arguments (r : Nested) : Production Tree := do
  let left ← expect .leftParenthesis
  let c ← get
  if c.sees .ellipsis && (c.peek 1).isPunctuator .rightParenthesis then
    let ellipsis ← token
    return .node .callableConvert [left, ellipsis, ← token]
  else
    let list ← commaList .rightParenthesis (argument r)
    return .node .arguments [left, list, ← expect .rightParenthesis]

def attributeUse (r : Nested) : Production Tree := do
  let label ← name
  return .node .attributeUse [label, ← Production.optional (·.sees .leftParenthesis) (arguments r)]

def attributeGroup (r : Nested) : Production Tree := do
  let left ← token
  let list ← commaList .rightBracket (attributeUse r)
  return .node .attributeGroup [left, list, ← expect .rightBracket]

def attributes (r : Nested) : Production Tree := do
  return .node .plainList (← gatherTrees (·.sees .attributeOpen) (attributeGroup r))

end PhpSyntax.Grammar
