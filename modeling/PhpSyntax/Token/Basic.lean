import PhpSyntax.Source.Position
import PhpSyntax.Text.Basic

namespace PhpSyntax

inductive TokenKind where
  /-- Text outside of the tags. -/
  | inlineHtml
  | openTag
  /-- The tag that opens code and echoes its first expression. -/
  | openTagWithEcho
  | closeTag
  | variableName
  /-- A name, qualified or not, or a reserved word. -/
  | identifier
  | integer
  | float
  | singleQuotedString
  /-- A double quoted string without interpolation. -/
  | doubleQuotedString
  /-- A double quoted string with interpolation. -/
  | expandableString
  | heredoc
  | nowdoc
  | shellCommand
  | cast
  | punctuator
  | eof
deriving DecidableEq

namespace TokenKind

def all : List TokenKind :=
  [.inlineHtml, .openTag, .openTagWithEcho, .closeTag, .variableName, .identifier, .integer, .float,
   .singleQuotedString, .doubleQuotedString, .expandableString, .heredoc, .nowdoc, .shellCommand,
   .cast, .punctuator, .eof]

def name : TokenKind → String
  | inlineHtml => "InlineHtml"
  | openTag => "OpenTag"
  | openTagWithEcho => "OpenTagWithEcho"
  | closeTag => "CloseTag"
  | variableName => "Variable"
  | identifier => "Identifier"
  | integer => "Integer"
  | float => "Float"
  | singleQuotedString => "SingleQuotedString"
  | doubleQuotedString => "DoubleQuotedString"
  | expandableString => "ExpandableString"
  | heredoc => "Heredoc"
  | nowdoc => "Nowdoc"
  | shellCommand => "ShellCommand"
  | cast => "Cast"
  | punctuator => "Punctuator"
  | eof => "Eof"

end TokenKind

structure Comment where
  text : String
  start : Position
deriving DecidableEq

structure Token where
  kind : TokenKind
  text : String
  start : Position
  trivia : List Comment
deriving DecidableEq

end PhpSyntax
