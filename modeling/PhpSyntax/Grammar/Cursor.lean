import PhpSyntax.Grammar.Fault

/-!
A place in a stream of tokens, and what can be seen from it. The stream ends with the token of the
file's end, and nothing moves a cursor over that token.
-/

namespace PhpSyntax.Grammar

structure Cursor where
  current : Token
  ahead : List Token
deriving DecidableEq

namespace Cursor

/-- The token `n` places ahead; beyond the stream its last token is seen. -/
def peek (c : Cursor) : Nat → Token
  | 0 => c.current
  | n + 1 => (c.ahead[n]?).getD (c.ahead.getLastD c.current)

def atEnd (c : Cursor) : Bool :=
  c.current.kind = .eof

/-- The place after the current token; the end of the file is never left. -/
def next (c : Cursor) : Cursor :=
  if c.atEnd then c
  else
    match c.ahead with
    | [] => c
    | t :: ts => ⟨t, ts⟩

def remaining (c : Cursor) : Nat :=
  c.ahead.length + 1

end Cursor

end PhpSyntax.Grammar

namespace PhpSyntax.Token

def isPunctuator (t : Token) (p : Punctuator) : Bool :=
  t.kind = .punctuator && p.isSpelled t.text

def isKeyword (t : Token) (k : Keyword) : Bool :=
  t.kind = .identifier && k.isSpelled t.text

def isKeywordIn (t : Token) (ks : List Keyword) : Bool :=
  ks.any t.isKeyword

def isQualified (t : Token) : Bool :=
  t.text.toList.contains '\\'

end PhpSyntax.Token

namespace PhpSyntax.Grammar.Cursor

def seesKind (c : Cursor) (kind : TokenKind) : Bool :=
  c.current.kind = kind

def sees (c : Cursor) (p : Punctuator) : Bool :=
  c.current.isPunctuator p

def seesAny (c : Cursor) (ps : List Punctuator) : Bool :=
  ps.any c.sees

def seesKeyword (c : Cursor) (k : Keyword) : Bool :=
  c.current.isKeyword k

def seesAnyKeyword (c : Cursor) (ks : List Keyword) : Bool :=
  c.current.isKeywordIn ks

def seesStatementEnd (c : Cursor) : Bool :=
  c.sees .semicolon || c.seesKind .closeTag

def expectedError (c : Cursor) (what : Expectation) : SyntaxError :=
  ⟨if c.atEnd then .unexpectedEnd what else .expected what c.current.text, c.current.start⟩

def unexpectedError (c : Cursor) (what : Expectation) : SyntaxError :=
  ⟨if c.atEnd then .unexpectedEnd what else .unexpectedToken c.current.text, c.current.start⟩

end PhpSyntax.Grammar.Cursor
