import PhpSyntax.Pattern.Delimited
import PhpSyntax.Tree.Walk
import PhpSyntax.View.ArgumentMatcher

namespace PhpSyntax.Pattern

def regexFunctions : List String :=
  ["preg_match", "preg_match_all", "preg_replace", "preg_replace_callback", "preg_split",
   "preg_grep", "preg_filter"]

def isRegexFunction (name : String) : Bool :=
  regexFunctions.any (Text.sameIgnoringCase · name)

def patternArgument : ArgumentMatcher :=
  .ofParameter 0 (some "pattern")

def regexLiteral? (tree : Tree) : Option Tree :=
  let literal := tree.skipParentheses
  if (DelimitedPattern.ofLiteral literal).isOk then some literal else none

structure AnalysedPattern where
  functionName : String
  source : DelimitedPattern
  parsed : ParsedPattern

def patternOf? (call : FunctionCall) : Option AnalysedPattern := do
  let name ← call.functionName?
  guard (isRegexFunction name)
  let value ← patternArgument.value? call
  let source ← (DelimitedPattern.ofLiteral value.skipParentheses).toOption
  let parsed := source.parse
  guard (!parsed.hasErrors)
  return ⟨name, source, parsed⟩

def callsOf (tree : Tree) : List FunctionCall :=
  tree.descendants.filterMap FunctionCall.ofTree?

def analysedPatterns (tree : Tree) : List AnalysedPattern :=
  (callsOf tree).filterMap patternOf?

end PhpSyntax.Pattern
