import PhpSyntax.Lexer.Name

namespace PhpSyntax.Lexer

def isBlank (c : Char) : Bool :=
  c = ' ' || c = '\t'

structure HeredocHeader where
  label : List Char
  /-- Whether the label stands in single quotes. -/
  isNowdoc : Bool
  /-- The number of characters from the angle brackets to the line feed, both included. -/
  length : Nat

def stripChar? (c : Char) : List Char → Option (List Char)
  | [] => none
  | d :: ds => if d = c then some ds else none

/-- Reads the header whose angle brackets `cs` follows: blanks, a label, in quotes or not, and the
end of the line. -/
def heredocHeader? (cs : List Char) : Option HeredocHeader := do
  let body := cs.dropWhile isBlank
  let quote := body.head?.filter fun c => c = '\x27' || c = '\x22'
  let named := if quote.isSome then body.tail else body
  let label := named.takeWhile isNameChar
  guard (startsWith isNameStart named)
  let afterLabel := named.dropWhile isNameChar
  let afterQuote ←
    match quote with
    | some q => stripChar? q afterLabel
    | none => some afterLabel
  let lineEnd := (stripChar? '\r' afterQuote).getD afterQuote
  let rest ← stripChar? '\n' lineEnd
  return ⟨label, quote = some '\x27', 3 + (cs.length - rest.length)⟩

def closingLength? (label : List Char) (line : List Char) : Option Nat :=
  let body := line.dropWhile isBlank
  if label.isPrefixOf body && !startsWith isNameChar (body.drop label.length) then
    some (runLength isBlank line + label.length)
  else none

/-- How many characters belong to the heredoc after its header, and whether the label closes it.
The flag tells whether the characters start a line. -/
def heredocRun (label : List Char) : Bool → List Char → Nat × Bool
  | _, [] => (0, false)
  | atLineStart, c :: cs =>
    match (if atLineStart then closingLength? label (c :: cs) else none) with
    | some n => (n, true)
    | none =>
      let (n, closed) := heredocRun label (c = '\n') cs
      (n + 1, closed)

end PhpSyntax.Lexer
