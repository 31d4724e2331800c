import PhpSyntax.Token.Basic

/-!
Operators and delimiters. They are listed with the longer spellings first, so that the first one
that starts a text is the longest that does.
-/

namespace PhpSyntax

inductive Punctuator where
  | nullsafeArrow
  | spaceship
  | starStarEqual
  | ellipsis
  | shiftLeftEqual
  | shiftRightEqual
  | strictEqual
  | strictNotEqual
  | coalesceEqual
  | starStar
  | increment
  | decrement
  | arrow
  | doubleArrow
  | doubleColon
  | equalEqual
  | notEqual
  | lessGreater
  | lessEqual
  | greaterEqual
  | andAnd
  | orOr
  | coalesce
  | plusEqual
  | minusEqual
  | starEqual
  | slashEqual
  | dotEqual
  | percentEqual
  | ampersandEqual
  | pipeEqual
  | caretEqual
  | shiftLeft
  | shiftRight
  | attributeOpen
  | semicolon
  | comma
  | leftParenthesis
  | rightParenthesis
  | leftBracket
  | rightBracket
  | leftCurlyBrace
  | rightCurlyBrace
  | equal
  | plus
  | minus
  | star
  | slash
  | percent
  | dot
  | bang
  | tilde
  | atSign
  | query
  | colon
  | ampersand
  | pipe
  | caret
  | lessThan
  | greaterThan
  | nsSeparator
  | dollar
deriving DecidableEq

namespace Punctuator

def spelling : Punctuator → String
  | nullsafeArrow => "?->"
  | spaceship => "<=>"
  | starStarEqual => "**="
  | ellipsis => "..."
  | shiftLeftEqual => "<<="
  | shiftRightEqual => ">>="
  | strictEqual => "==="
  | strictNotEqual => "!=="
  | coalesceEqual => "??="
  | starStar => "**"
  | increment => "++"
  | decrement => "--"
  | arrow => "->"
  | doubleArrow => "=>"
  | doubleColon => "::"
  | equalEqual => "=="
  | notEqual => "!="
  | lessGreater => "<>"
  | lessEqual => "<="
  | greaterEqual => ">="
  | andAnd => "&&"
  | orOr => "||"
  | coalesce => "??"
  | plusEqual => "+="
  | minusEqual => "-="
  | starEqual => "*="
  | slashEqual => "/="
  | dotEqual => ".="
  | percentEqual => "%="
  | ampersandEqual => "&="
  | pipeEqual => "|="
  | caretEqual => "^="
  | shiftLeft => "<<"
  | shiftRight => ">>"
  | attributeOpen => "#["
  | semicolon => ";"
  | comma => ","
  | leftParenthesis => "("
  | rightParenthesis => ")"
  | leftBracket => "["
  | rightBracket => "]"
  | leftCurlyBrace => "\x7b"
  | rightCurlyBrace => "\x7d"
  | equal => "="
  | plus => "+"
  | minus => "-"
  | star => "*"
  | slash => "/"
  | percent => "%"
  | dot => "."
  | bang => "!"
  | tilde => "~"
  | atSign => "@"
  | query => "?"
  | colon => ":"
  | ampersand => "&"
  | pipe => "|"
  | caret => "^"
  | lessThan => "<"
  | greaterThan => ">"
  | nsSeparator => "\\"
  | dollar => "$"

def name : Punctuator → String
  | nullsafeArrow => "NullsafeArrow"
  | spaceship => "Spaceship"
  | starStarEqual => "StarStarEqual"
  | ellipsis => "Ellipsis"
  | shiftLeftEqual => "ShiftLeftEqual"
  | shiftRightEqual => "ShiftRightEqual"
  | strictEqual => "StrictEqual"
  | strictNotEqual => "StrictNotEqual"
  | coalesceEqual => "CoalesceEqual"
  | starStar => "StarStar"
  | increment => "Increment"
  | decrement => "Decrement"
  | arrow => "Arrow"
  | doubleArrow => "DoubleArrow"
  | doubleColon => "DoubleColon"
  | equalEqual => "EqualEqual"
  | notEqual => "NotEqual"
  | lessGreater => "LessGreater"
  | lessEqual => "LessEqual"
  | greaterEqual => "GreaterEqual"
  | andAnd => "AndAnd"
  | orOr => "OrOr"
  | coalesce => "Coalesce"
  | plusEqual => "PlusEqual"
  | minusEqual => "MinusEqual"
  | starEqual => "StarEqual"
  | slashEqual => "SlashEqual"
  | dotEqual => "DotEqual"
  | percentEqual => "PercentEqual"
  | ampersandEqual => "AmpersandEqual"
  | pipeEqual => "PipeEqual"
  | caretEqual => "CaretEqual"
  | shiftLeft => "ShiftLeft"
  | shiftRight => "ShiftRight"
  | attributeOpen => "AttributeOpen"
  | semicolon => "Semicolon"
  | comma => "Comma"
  | leftParenthesis => "LParenthesis"
  | rightParenthesis => "RParenthesis"
  | leftBracket => "LBracket"
  | rightBracket => "RBracket"
  | leftCurlyBrace => "LCurlyBrace"
  | rightCurlyBrace => "RCurlyBrace"
  | equal => "Equal"
  | plus => "Plus"
  | minus => "Minus"
  | star => "Star"
  | slash => "Slash"
  | percent => "Percent"
  | dot => "Dot"
  | bang => "Bang"
  | tilde => "Tilde"
  | atSign => "At"
  | query => "Query"
  | colon => "Colon"
  | ampersand => "Ampersand"
  | pipe => "Pipe"
  | caret => "Caret"
  | lessThan => "LessThan"
  | greaterThan => "GreaterThan"
  | nsSeparator => "NsSeparator"
  | dollar => "Dollar"

/-- All punctuators, no spelling before a longer one. -/
def all : List Punctuator :=
  [.nullsafeArrow, .spaceship, .starStarEqual, .ellipsis, .shiftLeftEqual,
   .shiftRightEqual, .strictEqual, .strictNotEqual, .coalesceEqual, .starStar,
   .increment, .decrement, .arrow, .doubleArrow, .doubleColon,
   .equalEqual, .notEqual, .lessGreater, .lessEqual, .greaterEqual,
   .andAnd, .orOr, .coalesce, .plusEqual, .minusEqual,
   .starEqual, .slashEqual, .dotEqual, .percentEqual, .ampersandEqual,
   .pipeEqual, .caretEqual, .shiftLeft, .shiftRight, .attributeOpen,
   .semicolon, .comma, .leftParenthesis, .rightParenthesis, .leftBracket,
   .rightBracket, .leftCurlyBrace, .rightCurlyBrace, .equal, .plus,
   .minus, .star, .slash, .percent, .dot,
   .bang, .tilde, .atSign, .query, .colon,
   .ampersand, .pipe, .caret, .lessThan, .greaterThan,
   .nsSeparator, .dollar]

def isSpelled (p : Punctuator) (text : String) : Bool :=
  text = p.spelling

def longestAt? (cs : List Char) : Option Punctuator :=
  all.find? fun p => p.spelling.toList.isPrefixOf cs

end Punctuator

def Token.spellsPunctuator (t : Token) (candidates : List Punctuator) : Bool :=
  candidates.any (·.isSpelled t.text)

end PhpSyntax
