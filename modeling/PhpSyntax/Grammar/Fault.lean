import PhpSyntax.Token.Keyword
import PhpSyntax.Token.Punctuator

namespace PhpSyntax

inductive Expectation where
  | punctuator (p : Punctuator)
  | keyword (k : Keyword)
  | variableName
  | identifier
  | name
  | memberName
  | typeName
  | expression
  /-- A clause of a switch. -/
  | caseOrDefault
  /-- A clause after the body of a try. -/
  | catchOrFinally
  /-- The token that ends every file. -/
  | endOfFile
deriving DecidableEq

namespace Expectation

def quote (spelling : String) : String :=
  "'" ++ spelling ++ "'"

def describe : Expectation → String
  | punctuator p => quote p.spelling
  | keyword k => quote k.spelling
  | variableName => "variable"
  | identifier => "identifier"
  | name => "name"
  | memberName => "member name"
  | typeName => "type"
  | expression => "expression"
  | caseOrDefault => "'case' or 'default'"
  | catchOrFinally => "'catch' or 'finally'"
  | endOfFile => "end-of-file token"

end Expectation

inductive SyntaxFault where
  /-- Another token stands where one thing was required. -/
  | expected (what : Expectation) (found : String)
  /-- The file ends where something was required. -/
  | unexpectedEnd (what : Expectation)
  /-- A token that cannot stand there. -/
  | unexpectedToken (found : String)
deriving DecidableEq

def SyntaxFault.describe : SyntaxFault → String
  | expected what found => "expected " ++ what.describe ++ ", got '" ++ found ++ "'"
  | unexpectedEnd what => "unexpected end of input, expected " ++ what.describe
  | unexpectedToken found => "unexpected '" ++ found ++ "'"

structure SyntaxError where
  fault : SyntaxFault
  position : Position
deriving DecidableEq

def SyntaxError.message (e : SyntaxError) : String :=
  e.fault.describe ++ " " ++ e.position.describe

end PhpSyntax
