import PhpSyntax.Lexer.Reading

/-!
The tokens of a source. Scanning never stops early: faults are collected beside the tokens, and the
token stream always ends with the end of the file.
-/

namespace PhpSyntax.Lexer

structure Lexed where
  tokens : List Token
  errors : List LexError
deriving DecidableEq

namespace Lexed

def isOk (lexed : Lexed) : Bool :=
  lexed.errors.isEmpty

def toExcept (lexed : Lexed) : Except LexError (List Token) :=
  match lexed.errors with
  | [] => .ok lexed.tokens
  | e :: _ => .error e

end Lexed

def insideAfter (inside : Bool) : TokenKind → Bool
  | .openTag | .openTagWithEcho => true
  | .closeTag => false
  | _ => inside

/-- The number of characters that vanish after a token: one line end after a closing tag. -/
def skippedAfter (kind : TokenKind) (cs : List Char) : Nat :=
  match kind with
  | .closeTag =>
    if "\r\n".toList.isPrefixOf cs then 2 else if cs.head? = some '\n' then 1 else 0
  | _ => 0

/-- Scans `source`, whose first character stands at `pos`. The comments in `trivia` wait for the
next token. -/
def scan (options : LexerOptions) (inside : Bool) (pos : Position) (trivia : List Comment)
    (source : List Char) : Lexed :=
  match source with
  | [] => ⟨[⟨.eof, "", pos, trivia⟩], []⟩
  | c :: cs =>
    let reading := if inside then readCode c cs else readHtml options c cs
    let chars := c :: cs.take reading.more
    let rest := cs.drop reading.more
    let faults := reading.fault.toList.map fun fault => ⟨fault, pos⟩
    let stop := pos.advance chars
    match reading.piece with
    | .blank | .stray =>
      let tail := scan options inside stop trivia rest
      ⟨tail.tokens, faults ++ tail.errors⟩
    | .comment =>
      let tail := scan options inside stop (trivia ++ [⟨String.ofList chars, pos⟩]) rest
      ⟨tail.tokens, faults ++ tail.errors⟩
    | .token kind =>
      let skipped := skippedAfter kind rest
      let tail := scan options (insideAfter inside kind) (stop.advance (rest.take skipped)) []
        (rest.drop skipped)
      ⟨⟨kind, String.ofList chars, pos, trivia⟩ :: tail.tokens, faults ++ tail.errors⟩
termination_by source.length
decreasing_by all_goals simp_all +arith

def withoutByteOrderMark (source : List Char) : List Char :=
  match source with
  | '\ufeff' :: rest => rest
  | _ => source

def tokenizeWith (options : LexerOptions) (source : String) : Lexed :=
  scan options false .start [] (withoutByteOrderMark source.toList)

def tokenize (source : String) : Lexed :=
  tokenizeWith ⟨false⟩ source

end PhpSyntax.Lexer
