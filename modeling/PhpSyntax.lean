import PhpSyntax.Grammar.Call
import PhpSyntax.Grammar.ClassBody
import PhpSyntax.Grammar.ControlFlow
import PhpSyntax.Grammar.Cursor
import PhpSyntax.Grammar.Declaration
import PhpSyntax.Grammar.Fault
import PhpSyntax.Grammar.File
import PhpSyntax.Grammar.Function
import PhpSyntax.Grammar.Operand
import PhpSyntax.Grammar.Operator
import PhpSyntax.Grammar.Production
import PhpSyntax.Grammar.Statement
import PhpSyntax.Grammar.TypeDeclaration
import PhpSyntax.Lexer.Heredoc
import PhpSyntax.Lexer.Fault
import PhpSyntax.Lexer.Name
import PhpSyntax.Lexer.Number
import PhpSyntax.Lexer.Quoted
import PhpSyntax.Lexer.Reading
import PhpSyntax.Lexer.Scan
import PhpSyntax.Lexer.Tag
import PhpSyntax.Literal.Escape
import PhpSyntax.Literal.Integer
import PhpSyntax.Literal.Text
import PhpSyntax.Pattern.Analysed
import PhpSyntax.Pattern.Brackets
import PhpSyntax.Pattern.ClassSet.Basic
import PhpSyntax.Pattern.ClassSet.Element
import PhpSyntax.Pattern.Delimited
import PhpSyntax.Pattern.Duplicates
import PhpSyntax.Pattern.Escape
import PhpSyntax.Pattern.Fault
import PhpSyntax.Pattern.Flags
import PhpSyntax.Pattern.Group
import PhpSyntax.Pattern.Parse
import PhpSyntax.Pattern.Quantified
import PhpSyntax.Pattern.Reader
import PhpSyntax.Pattern.Regex
import PhpSyntax.Pattern.SourceChar
import PhpSyntax.Pattern.Visit
import PhpSyntax.Proofs.Grammar.Classes
import PhpSyntax.Proofs.Grammar.Combinators
import PhpSyntax.Proofs.Grammar.Expressions
import PhpSyntax.Proofs.Grammar.File
import PhpSyntax.Proofs.Grammar.Functions
import PhpSyntax.Proofs.Grammar.Progress.Classes
import PhpSyntax.Proofs.Grammar.Progress.Combinators
import PhpSyntax.Proofs.Grammar.Progress.Expressions
import PhpSyntax.Proofs.Grammar.Progress.File
import PhpSyntax.Proofs.Grammar.Progress.Functions
import PhpSyntax.Proofs.Grammar.Progress.Nesting
import PhpSyntax.Proofs.Grammar.Progress.Rules
import PhpSyntax.Proofs.Grammar.Progress.Runs
import PhpSyntax.Proofs.Grammar.Progress.Statements
import PhpSyntax.Proofs.Grammar.Reads
import PhpSyntax.Proofs.Grammar.Renamed.Classes
import PhpSyntax.Proofs.Grammar.Renamed.Combinators
import PhpSyntax.Proofs.Grammar.Renamed.Expressions
import PhpSyntax.Proofs.Grammar.Renamed.File
import PhpSyntax.Proofs.Grammar.Renamed.Functions
import PhpSyntax.Proofs.Grammar.Renamed.Moves
import PhpSyntax.Proofs.Grammar.Renamed.Statements
import PhpSyntax.Proofs.Grammar.Renamed.Tokens
import PhpSyntax.Proofs.Grammar.Statements
import PhpSyntax.Proofs.Grammar.WellFormed
import PhpSyntax.Proofs.Lexer.Cover
import PhpSyntax.Proofs.Lexer.Readings
import PhpSyntax.Proofs.Lexer.Segments
import PhpSyntax.Proofs.Lexer.Tokens
import PhpSyntax.Proofs.Pattern.Analysed
import PhpSyntax.Proofs.Pattern.Checked
import PhpSyntax.Proofs.Pattern.ClassSet.Additions
import PhpSyntax.Proofs.Pattern.ClassSet.Elements
import PhpSyntax.Proofs.Pattern.ClassSet.Listed
import PhpSyntax.Proofs.Pattern.ClassSet.Owners
import PhpSyntax.Proofs.Pattern.ClassSet.Runs
import PhpSyntax.Proofs.Pattern.ClassSet.Steps
import PhpSyntax.Proofs.Pattern.Classes
import PhpSyntax.Proofs.Pattern.Delimited
import PhpSyntax.Proofs.Pattern.Duplicates
import PhpSyntax.Proofs.Pattern.Escapes
import PhpSyntax.Proofs.Pattern.Findings
import PhpSyntax.Proofs.Pattern.Groups
import PhpSyntax.Proofs.Pattern.Moved.Classes
import PhpSyntax.Proofs.Pattern.Moved.Decoded
import PhpSyntax.Proofs.Pattern.Moved.Groups
import PhpSyntax.Proofs.Pattern.Moved.Readings
import PhpSyntax.Proofs.Pattern.Moved.Trees
import PhpSyntax.Proofs.Pattern.Overlaps
import PhpSyntax.Proofs.Pattern.Reading
import PhpSyntax.Proofs.Pattern.Scopes.Classes
import PhpSyntax.Proofs.Pattern.Scopes.Groups
import PhpSyntax.Proofs.Pattern.Scopes.Walk
import PhpSyntax.Proofs.Pattern.SourceChars
import PhpSyntax.Proofs.Pattern.Spans.Classes
import PhpSyntax.Proofs.Pattern.Spans.Groups
import PhpSyntax.Proofs.Pattern.Spans.Parts
import PhpSyntax.Proofs.Pattern.Spans.Readings
import PhpSyntax.Proofs.Pattern.Stripped
import PhpSyntax.Proofs.Pattern.Visit
import PhpSyntax.Proofs.Printer.Casts
import PhpSyntax.Proofs.Printer.Gaps
import PhpSyntax.Proofs.Printer.Headers
import PhpSyntax.Proofs.Printer.Readings
import PhpSyntax.Proofs.Printer.Relexed
import PhpSyntax.Proofs.Printer.Respaced
import PhpSyntax.Proofs.Printer.Runs
import PhpSyntax.Proofs.Printer.UpToGap
import PhpSyntax.Proofs.Source.Position
import PhpSyntax.Proofs.Text.Quoted
import PhpSyntax.Proofs.Tree.Inside
import PhpSyntax.Proofs.Tree.Kind
import PhpSyntax.Proofs.Tree.Outline
import PhpSyntax.Proofs.Tree.Sound
import PhpSyntax.Source.Finding
import PhpSyntax.Source.Position
import PhpSyntax.Text.Alphabetic
import PhpSyntax.Text.CaseMapping
import PhpSyntax.Text.Cased
import PhpSyntax.Text.Digits
import PhpSyntax.Text.Basic
import PhpSyntax.Text.Numeric
import PhpSyntax.Text.Printable
import PhpSyntax.Text.Quoted
import PhpSyntax.Token.Basic
import PhpSyntax.Token.Keyword
import PhpSyntax.Token.Layout
import PhpSyntax.Token.Punctuator
import PhpSyntax.Tree.Basic
import PhpSyntax.Tree.Equivalence
import PhpSyntax.Tree.Kind
import PhpSyntax.Tree.Outline
import PhpSyntax.Tree.Printer
import PhpSyntax.Tree.Walk
import PhpSyntax.View.ArgumentMatcher
import PhpSyntax.View.Call
import PhpSyntax.View.Declaration
import PhpSyntax.View.Expression
import PhpSyntax.View.Function
import PhpSyntax.Proofs.Tree.Locations
import PhpSyntax.Proofs.Tree.Tails
import PhpSyntax.Proofs.Grammar.Locations
import PhpSyntax.Proofs.Grammar.Shape.Nodes
import PhpSyntax.Proofs.Grammar.Shape.Combinators
import PhpSyntax.Proofs.Grammar.Shape.Functions
import PhpSyntax.Proofs.Grammar.Shape.Classes
import PhpSyntax.Proofs.Grammar.Shape.Expressions
import PhpSyntax.Proofs.Grammar.Shape.Statements
import PhpSyntax.Proofs.Grammar.Shape.Branches
import PhpSyntax.Proofs.Grammar.Shape.File
import PhpSyntax.Proofs.Pattern.Inversions
import PhpSyntax.Proofs.Pattern.Reached
import PhpSyntax.Proofs.Pattern.Replaced
import PhpSyntax.Proofs.Pattern.ByCall
import PhpSyntax.Proofs.Pattern.Places
import PhpSyntax.Proofs.Text.Ascii
import PhpSyntax.Proofs.Pattern.ClassSet.Matched
import PhpSyntax.Proofs.Pattern.ClassSet.Meaning
import PhpSyntax.Proofs.Pattern.ClassSet.InPlace
import PhpSyntax.Proofs.Pattern.ClassSet.Intersections
import PhpSyntax.Proofs.Lexer.Endings
import PhpSyntax.Proofs.Lexer.Errors
import PhpSyntax.Proofs.Lexer.Alone
import PhpSyntax.Proofs.Lexer.SelfDelimiting
import PhpSyntax.Proofs.Lexer.Alternation
import PhpSyntax.Proofs.Lexer.Heredocs
import PhpSyntax.Proofs.Pattern.InSource
import PhpSyntax.Proofs.Pattern.Progress.Classes
import PhpSyntax.Proofs.Pattern.Progress.Groups
import PhpSyntax.Proofs.Pattern.Progress.Patterns
import PhpSyntax.Proofs.Pattern.Normal.Parts
import PhpSyntax.Proofs.Pattern.Normal.Patterns
import PhpSyntax.Proofs.Pattern.Numbering.Parts
import PhpSyntax.Proofs.Pattern.Numbering.Patterns
import PhpSyntax.Proofs.Pattern.Bracket.Members
import PhpSyntax.Proofs.Pattern.Bracket.Escaped
import PhpSyntax.Proofs.Pattern.Bracket.Classes
import PhpSyntax.Proofs.Pattern.Bracket.Patterns
import PhpSyntax.Proofs.Pattern.Bracket.Texts
import PhpSyntax.Proofs.Pattern.Enclosed
import PhpSyntax.Proofs.Lexer.Spacing
import PhpSyntax.Proofs.Literal.Integer
import PhpSyntax.Proofs.View.ArgumentMatcher
