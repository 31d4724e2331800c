import PhpSyntax.Pattern.Parse
import PhpSyntax.Tree.Basic

namespace PhpSyntax.Pattern

inductive DelimiterError where
  | notAStringLiteral
  | missingDelimiters
deriving DecidableEq

def DelimiterError.message : DelimiterError → String
  | notAStringLiteral => "Only string literals allowed"
  | missingDelimiters => "Regular expression does not contain delimiters"

structure DelimitedPattern where
  /-- The text between the delimiters as it is written. -/
  text : String
  quote : Literal.Quote
  openDelimiter : Char
  closeDelimiter : Char
  modifiers : String
  /-- Where the text starts in the file. -/
  start : Position
deriving DecidableEq

def isControl (c : Char) : Bool :=
  c.toNat < 0x20 || (0x7F ≤ c.toNat && c.toNat < 0xA0)

def isDelimiter (c : Char) : Bool :=
  !(isWordLetter c || c = '_' || c = '\\' || Text.isWhiteSpace c || isControl c)

def closingDelimiter (c : Char) : Char :=
  match c with
  | '(' => ')'
  | '[' => ']'
  | '\x7b' => '\x7d'
  | '<' => '>'
  | _ => c

def splitAtLast? (c : Char) : List Char → Option (List Char × List Char)
  | [] => none
  | d :: ds =>
    match splitAtLast? c ds with
    | some (before, after) => some (d :: before, after)
    | none => if d = c then some ([], ds) else none

namespace DelimitedPattern

def literalToken? (tree : Tree) : Option (Token × Literal.Quote) := do
  let token ← tree.token?
  guard (tree.kind = .regularStringLiteral && 2 ≤ token.length)
  return (token, ← Literal.Quote.ofHead? token.text.toList)

/-- Reads a literal: white space, a delimiter, the pattern up to the last closing delimiter, and
the modifiers. -/
def ofLiteral (tree : Tree) : Except DelimiterError DelimitedPattern :=
  match literalToken? tree with
  | none => .error .notAStringLiteral
  | some (token, quote) =>
    let body := token.text.toList.tail.dropLast
    match body.dropWhile Text.isWhiteSpace with
    | [] => .error .missingDelimiters
    | delimiter :: rest =>
      match (if isDelimiter delimiter then splitAtLast? (closingDelimiter delimiter) rest
        else none) with
      | none => .error .missingDelimiters
      | some (text, modifiers) =>
        let before := token.text.toList.take (token.length - 1 - rest.length)
        .ok
          { text := String.ofList text
            quote
            openDelimiter := delimiter
            closeDelimiter := closingDelimiter delimiter
            modifiers := String.ofList modifiers
            start := token.start.advance before }

def flags (p : DelimitedPattern) : Flags :=
  .ofModifiers p.modifiers

def characters (p : DelimitedPattern) : List SourceChar :=
  decode p.quote p.text

def parse (p : DelimitedPattern) : ParsedPattern :=
  parseChars p.characters p.flags

def positionAt (p : DelimitedPattern) (offset : Nat) : Position :=
  p.start.advance (p.text.toList.take offset)

def locationOf (p : DelimitedPattern) (span : Span) : Location :=
  ⟨p.positionAt span.start, p.positionAt (max span.stop span.start)⟩

end DelimitedPattern

end PhpSyntax.Pattern
