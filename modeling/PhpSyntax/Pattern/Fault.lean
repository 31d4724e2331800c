import PhpSyntax.Pattern.SourceChar

namespace PhpSyntax.Pattern

inductive PatternExpectation where
  | character (c : Char)
  | escapedCharacter
  | propertyName
  | groupReference
  | hexDigit
  | groupName
  /-- A flag, or what may follow the flags of a group. -/
  | flagOrEnd
deriving DecidableEq

def PatternExpectation.describe : PatternExpectation → String
  | character c => "'" ++ String.singleton c ++ "'"
  | escapedCharacter => "escaped character"
  | propertyName => "property name"
  | groupReference => "group reference"
  | hexDigit => "hexadecimal digit"
  | groupName => "group name"
  | flagOrEnd => "flag, ':' or ')'"

inductive PatternFault where
  | unmatchedParenthesis
  /-- Another character, or none, stands where something was needed. -/
  | expected (what : PatternExpectation) (found : Option Char)
  | unexpectedQuantifier (c : Char)
  | illegalRepetition
  | invalidEscape (c : Char)
  | expectedControlCharacter
  | unknownFlag (c : Char)
  /-- No kind of group follows the letter that announces one. -/
  | expectedGroupKind
  | expectedLookaround
  | tooManyAlternatives
deriving DecidableEq

def PatternFault.message : PatternFault → String
  | unmatchedParenthesis => "Unmatched ')'"
  | expected what (some c) =>
    "Expected " ++ what.describe ++ ", but found '" ++ String.singleton c ++ "'"
  | expected what none => "Expected " ++ what.describe ++ ", but found the end of the regex"
  | unexpectedQuantifier c => "Unexpected quantifier '" ++ String.singleton c ++ "'"
  | illegalRepetition => "Illegal repetition range"
  | invalidEscape c => "Invalid escape sequence '\\" ++ String.singleton c ++ "'"
  | expectedControlCharacter => "Expected control character"
  | unknownFlag c => "Unknown flag '" ++ String.singleton c ++ "'"
  | expectedGroupKind => "Expected '<', '=' or '>' after '(?P'"
  | expectedLookaround => "Expected lookaround as condition"
  | tooManyAlternatives => "Conditional group has more than two alternatives"

structure PatternError where
  fault : PatternFault
  span : Span
deriving DecidableEq

def PatternError.describe (e : PatternError) : String :=
  e.fault.message ++ " at offset " ++ toString e.span.start ++ ".." ++ toString e.span.stop

end PhpSyntax.Pattern
