import PhpSyntax.Text.Basic
import PhpSyntax.Token.Basic

namespace PhpSyntax.Lexer

structure LexerOptions where
  /-- Whether the two characters `<?` alone open code. -/
  shortOpenTag : Bool
deriving DecidableEq

def startsWithIgnoringCase (word : String) (cs : List Char) : Bool :=
  (cs.take word.toList.length).map Char.toLower = word.toList.map Char.toLower

/-- The tag at the start of `cs` that opens code, with its length. The long tag needs white space
or the end of the text after it. -/
def openTagAt? (options : LexerOptions) (cs : List Char) : Option (TokenKind × Nat) :=
  if startsWithIgnoringCase "<?php" cs then
    if (cs.drop 5).head?.all Text.isWhiteSpace then some (.openTag, 5) else none
  else if "<?=".toList.isPrefixOf cs then some (.openTagWithEcho, 3)
  else if options.shortOpenTag && "<?".toList.isPrefixOf cs
      && !startsWithIgnoringCase "<?xml" cs then
    some (.openTag, 2)
  else none

def htmlLength (options : LexerOptions) : List Char → Nat
  | [] => 0
  | c :: cs => if (openTagAt? options (c :: cs)).isSome then 0 else htmlLength options cs + 1

end PhpSyntax.Lexer
