import PhpSyntax.Source.Position

namespace PhpSyntax

inductive LexFault where
  | unterminatedString
  | unterminatedComment
  | unterminatedHeredoc (label : String)
  /-- A character that starts no token. -/
  | unexpectedCharacter (c : Char)
deriving DecidableEq

def LexFault.describe : LexFault → String
  | unterminatedString => "unterminated string literal"
  | unterminatedComment => "unterminated comment"
  | unterminatedHeredoc label => "unterminated heredoc, expected closing label: " ++ label
  | unexpectedCharacter c => "unexpected character: " ++ String.singleton c

structure LexError where
  fault : LexFault
  position : Position
deriving DecidableEq

def LexError.message (e : LexError) : String :=
  e.fault.describe ++ " " ++ e.position.describe

end PhpSyntax
