import PhpSyntax.Lexer.Heredoc
import PhpSyntax.Lexer.Fault
import PhpSyntax.Lexer.Number
import PhpSyntax.Lexer.Quoted
import PhpSyntax.Lexer.Tag
import PhpSyntax.Token.Punctuator

/-!
What stands at a place of the source. A reading always takes the first character, and says how
many more belong to the same piece.
-/

namespace PhpSyntax.Lexer

inductive Piece where
  /-- White space between tokens. -/
  | blank
  /-- A character that starts no token. -/
  | stray
  | comment
  | token (kind : TokenKind)
deriving DecidableEq

structure Reading where
  piece : Piece
  /-- The number of characters that belong to the piece besides the first. -/
  more : Nat
  /-- What is missing at its end. -/
  fault : Option LexFault
deriving DecidableEq

def Reading.sound (piece : Piece) (more : Nat) : Reading :=
  ⟨piece, more, none⟩

def lineCommentLength : List Char → Nat
  | [] => 0
  | c :: cs =>
    if c = '\n' || (c = '?' && cs.head? = some '>') then 0 else lineCommentLength cs + 1

def blockCommentRun : List Char → Nat × Bool
  | [] => (0, false)
  | c :: cs =>
    if c = '*' && cs.head? = some '/' then (2, true)
    else
      let (n, closed) := blockCommentRun cs
      (n + 1, closed)

def castTypes : List String :=
  ["int", "integer", "bool", "boolean", "float", "double", "real", "string", "binary", "array",
   "object", "unset"]

/-- The length of a cast whose opening parenthesis `cs` follows, without that parenthesis. -/
def castLength? (cs : List Char) : Option Nat := do
  let body := cs.dropWhile isBlank
  let word := body.takeWhile Char.isAlpha
  let close := (body.dropWhile Char.isAlpha).dropWhile isBlank
  let rest ← stripChar? ')' close
  guard (castTypes.contains (String.ofList (word.map Char.toLower)))
  return cs.length - rest.length

def readLineComment (cs : List Char) : Reading :=
  .sound .comment (lineCommentLength cs)

/-- Reads a block comment; `cs` follows its first character. -/
def readBlockComment (cs : List Char) : Reading :=
  let (n, closed) := blockCommentRun cs.tail
  ⟨.comment, n + 1, if closed then none else some .unterminatedComment⟩

def readQuoted (close : Char) (interpolates : Bool) (kind expanded : TokenKind)
    (cs : List Char) : Reading :=
  let run := quotedRun close interpolates .plain cs
  ⟨.token (if run.expandable then expanded else kind), run.length,
    if run.closed then none else some .unterminatedString⟩

/-- Reads a heredoc; `cs` follows its first angle bracket. -/
def readHeredoc (header : HeredocHeader) (cs : List Char) : Reading :=
  let (n, closed) := heredocRun header.label true (cs.drop (header.length - 1))
  ⟨.token (if header.isNowdoc then .nowdoc else .heredoc), header.length - 1 + n,
    if closed then none else some (.unterminatedHeredoc (String.ofList header.label))⟩

def readPunctuator (c : Char) (cs : List Char) : Reading :=
  match Punctuator.longestAt? (c :: cs) with
  | some p => .sound (.token .punctuator) (p.spelling.toList.length - 1)
  | none => ⟨.stray, 0, some (.unexpectedCharacter c)⟩

def readCode (c : Char) (cs : List Char) : Reading :=
  let next := cs.head?
  if Text.isWhiteSpace c then .sound .blank 0
  else if c = '?' && next = some '>' then .sound (.token .closeTag) 1
  else if c = '#' && next = some '[' then readPunctuator c cs
  else if c = '#' then readLineComment cs
  else if c = '/' && next = some '/' then readLineComment cs
  else if c = '/' && next = some '*' then readBlockComment cs
  else if c = '$' && startsWith isNameStart cs then
    .sound (.token .variableName) (runLength isNameChar cs)
  else if isNameStart c || (c = '\\' && startsWith isNameStart cs) then
    .sound (.token .identifier) (nameLength cs)
  else if c.isDigit || (c = '.' && startsWith Char.isDigit cs) then
    let (kind, more) := numberLength c cs
    .sound (.token kind) more
  else if c = '\x27' then readQuoted c false .singleQuotedString .singleQuotedString cs
  else if c = '\x22' then readQuoted c true .doubleQuotedString .expandableString cs
  else if c = '\x60' then readQuoted c true .shellCommand .shellCommand cs
  else
    match (if c = '<' && "<<".toList.isPrefixOf cs then heredocHeader? (cs.drop 2) else none) with
    | some header => readHeredoc header cs
    | none =>
      match (if c = '(' then castLength? cs else none) with
      | some more => .sound (.token .cast) more
      | none => readPunctuator c cs

def readHtml (options : LexerOptions) (c : Char) (cs : List Char) : Reading :=
  match openTagAt? options (c :: cs) with
  | some (kind, n) => .sound (.token kind) (n - 1)
  | none => .sound (.token .inlineHtml) (htmlLength options cs)

end PhpSyntax.Lexer
