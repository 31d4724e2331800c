import PhpSyntax.Token.Basic

namespace PhpSyntax

inductive Keyword where
  | kwAbstract
  | kwAnd
  | kwArray
  | kwAs
  | kwBreak
  | kwCallable
  | kwCase
  | kwCatch
  | kwClass
  | kwClone
  | kwConst
  | kwContinue
  | kwDeclare
  | kwDefault
  | kwDie
  | kwDo
  | kwEcho
  | kwElse
  | kwElseif
  | kwEmpty
  | kwEnddeclare
  | kwEndfor
  | kwEndforeach
  | kwEndif
  | kwEndswitch
  | kwEndwhile
  | kwEnum
  | kwExit
  | kwExtends
  | kwFinal
  | kwFinally
  | kwFn
  | kwFor
  | kwForeach
  | kwFrom
  | kwFunction
  | kwGlobal
  | kwGoto
  | kwIf
  | kwImplements
  | kwInclude
  | kwIncludeOnce
  | kwInstanceof
  | kwInsteadof
  | kwInterface
  | kwIsset
  | kwList
  | kwMatch
  | kwNamespace
  | kwNew
  | kwOr
  | kwPrint
  | kwPrivate
  | kwProtected
  | kwPublic
  | kwReadonly
  | kwRequire
  | kwRequireOnce
  | kwReturn
  | kwStatic
  | kwSwitch
  | kwThrow
  | kwTrait
  | kwTry
  | kwUnset
  | kwUse
  | kwVar
  | kwWhile
  | kwXor
  | kwYield
deriving DecidableEq

namespace Keyword

def spelling : Keyword → String
  | kwAbstract => "abstract"
  | kwAnd => "and"
  | kwArray => "array"
  | kwAs => "as"
  | kwBreak => "break"
  | kwCallable => "callable"
  | kwCase => "case"
  | kwCatch => "catch"
  | kwClass => "class"
  | kwClone => "clone"
  | kwConst => "const"
  | kwContinue => "continue"
  | kwDeclare => "declare"
  | kwDefault => "default"
  | kwDie => "die"
  | kwDo => "do"
  | kwEcho => "echo"
  | kwElse => "else"
  | kwElseif => "elseif"
  | kwEmpty => "empty"
  | kwEnddeclare => "enddeclare"
  | kwEndfor => "endfor"
  | kwEndforeach => "endforeach"
  | kwEndif => "endif"
  | kwEndswitch => "endswitch"
  | kwEndwhile => "endwhile"
  | kwEnum => "enum"
  | kwExit => "exit"
  | kwExtends => "extends"
  | kwFinal => "final"
  | kwFinally => "finally"
  | kwFn => "fn"
  | kwFor => "for"
  | kwForeach => "foreach"
  | kwFrom => "from"
  | kwFunction => "function"
  | kwGlobal => "global"
  | kwGoto => "goto"
  | kwIf => "if"
  | kwImplements => "implements"
  | kwInclude => "include"
  | kwIncludeOnce => "include_once"
  | kwInstanceof => "instanceof"
  | kwInsteadof => "insteadof"
  | kwInterface => "interface"
  | kwIsset => "isset"
  | kwList => "list"
  | kwMatch => "match"
  | kwNamespace => "namespace"
  | kwNew => "new"
  | kwOr => "or"
  | kwPrint => "print"
  | kwPrivate => "private"
  | kwProtected => "protected"
  | kwPublic => "public"
  | kwReadonly => "readonly"
  | kwRequire => "require"
  | kwRequireOnce => "require_once"
  | kwReturn => "return"
  | kwStatic => "static"
  | kwSwitch => "switch"
  | kwThrow => "throw"
  | kwTrait => "trait"
  | kwTry => "try"
  | kwUnset => "unset"
  | kwUse => "use"
  | kwVar => "var"
  | kwWhile => "while"
  | kwXor => "xor"
  | kwYield => "yield"

def name : Keyword → String
  | kwAbstract => "Abstract"
  | kwAnd => "And"
  | kwArray => "Array"
  | kwAs => "As"
  | kwBreak => "Break"
  | kwCallable => "Callable"
  | kwCase => "Case"
  | kwCatch => "Catch"
  | kwClass => "Class"
  | kwClone => "Clone"
  | kwConst => "Const"
  | kwContinue => "Continue"
  | kwDeclare => "Declare"
  | kwDefault => "Default"
  | kwDie => "Die"
  | kwDo => "Do"
  | kwEcho => "Echo"
  | kwElse => "Else"
  | kwElseif => "Elseif"
  | kwEmpty => "Empty"
  | kwEnddeclare => "Enddeclare"
  | kwEndfor => "Endfor"
  | kwEndforeach => "Endforeach"
  | kwEndif => "Endif"
  | kwEndswitch => "Endswitch"
  | kwEndwhile => "Endwhile"
  | kwEnum => "Enum"
  | kwExit => "Exit"
  | kwExtends => "Extends"
  | kwFinal => "Final"
  | kwFinally => "Finally"
  | kwFn => "Fn"
  | kwFor => "For"
  | kwForeach => "Foreach"
  | kwFrom => "From"
  | kwFunction => "Function"
  | kwGlobal => "Global"
  | kwGoto => "Goto"
  | kwIf => "If"
  | kwImplements => "Implements"
  | kwInclude => "Include"
  | kwIncludeOnce => "IncludeOnce"
  | kwInstanceof => "Instanceof"
  | kwInsteadof => "Insteadof"
  | kwInterface => "Interface"
  | kwIsset => "Isset"
  | kwList => "List"
  | kwMatch => "Match"
  | kwNamespace => "Namespace"
  | kwNew => "New"
  | kwOr => "Or"
  | kwPrint => "Print"
  | kwPrivate => "Private"
  | kwProtected => "Protected"
  | kwPublic => "Public"
  | kwReadonly => "Readonly"
  | kwRequire => "Require"
  | kwRequireOnce => "RequireOnce"
  | kwReturn => "Return"
  | kwStatic => "Static"
  | kwSwitch => "Switch"
  | kwThrow => "Throw"
  | kwTrait => "Trait"
  | kwTry => "Try"
  | kwUnset => "Unset"
  | kwUse => "Use"
  | kwVar => "Var"
  | kwWhile => "While"
  | kwXor => "Xor"
  | kwYield => "Yield"

def all : List Keyword :=
  [.kwAbstract, .kwAnd, .kwArray, .kwAs, .kwBreak, .kwCallable,
   .kwCase, .kwCatch, .kwClass, .kwClone, .kwConst, .kwContinue,
   .kwDeclare, .kwDefault, .kwDie, .kwDo, .kwEcho, .kwElse,
   .kwElseif, .kwEmpty, .kwEnddeclare, .kwEndfor, .kwEndforeach, .kwEndif,
   .kwEndswitch, .kwEndwhile, .kwEnum, .kwExit, .kwExtends, .kwFinal,
   .kwFinally, .kwFn, .kwFor, .kwForeach, .kwFrom, .kwFunction,
   .kwGlobal, .kwGoto, .kwIf, .kwImplements, .kwInclude, .kwIncludeOnce,
   .kwInstanceof, .kwInsteadof, .kwInterface, .kwIsset, .kwList, .kwMatch,
   .kwNamespace, .kwNew, .kwOr, .kwPrint, .kwPrivate, .kwProtected,
   .kwPublic, .kwReadonly, .kwRequire, .kwRequireOnce, .kwReturn, .kwStatic,
   .kwSwitch, .kwThrow, .kwTrait, .kwTry, .kwUnset, .kwUse,
   .kwVar, .kwWhile, .kwXor, .kwYield]

def isSpelled (k : Keyword) (text : String) : Bool :=
  Text.sameIgnoringCase text k.spelling

def ofText? (text : String) : Option Keyword :=
  all.find? (·.isSpelled text)

end Keyword

def Token.spellsKeyword (t : Token) (candidates : List Keyword) : Bool :=
  candidates.any (·.isSpelled t.text)

end PhpSyntax
