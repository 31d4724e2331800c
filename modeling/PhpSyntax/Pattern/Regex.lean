import PhpSyntax.Pattern.Flags
import PhpSyntax.Pattern.SourceChar
import PhpSyntax.Text.Digits

namespace PhpSyntax.Pattern

/-- A code point, which escapes can make a lone surrogate or larger than any character. -/
structure Character where
  codePoint : Nat
  span : Span
deriving DecidableEq

def Character.toChar? (c : Character) : Option Char :=
  Text.charOf? c.codePoint

structure EscapedClass where
  letter : Char
  /-- The property, where the letter asks for one. -/
  property : Option String
  span : Span
deriving DecidableEq

/-- Whether the escape stands for the characters that its small letter does not stand for. -/
def EscapedClass.isNegation (e : EscapedClass) : Bool :=
  e.letter.isUpper

structure ClassRange where
  first : Character
  last : Character
  span : Span
deriving DecidableEq

structure PosixClass where
  name : String
  negated : Bool
  span : Span
deriving DecidableEq

structure UnionOf (ε : Type) where
  elements : List ε
  flags : Flags
  span : Span

structure BracketsOf (ε : Type) where
  negated : Bool
  union : UnionOf ε
  span : Span

inductive ClassElement where
  | character (c : Character)
  | range (r : ClassRange)
  | escapedClass (e : EscapedClass)
  | posix (p : PosixClass)
  | nested (c : BracketsOf ClassElement)
  /-- The code points that are in all operands. -/
  | intersection (operands : List (UnionOf ClassElement)) (span : Span)

abbrev ClassUnion := UnionOf ClassElement

abbrev CharacterClass := BracketsOf ClassElement

def ClassElement.span : ClassElement → Span
  | character c => c.span
  | range r => r.span
  | escapedClass e => e.span
  | posix p => p.span
  | nested c => c.span
  | intersection _ s => s

inductive GroupKind where
  /-- A group that later parts can refer to. -/
  | capturing (index : Nat) (name? : Option String)
  /-- A group for grouping only, which may change flags. -/
  | nonCapturing (change? : Option FlagChange)
  | atomic
  /-- A condition on what comes next or, looking behind, came before. -/
  | lookaround (behind negated : Bool)
deriving DecidableEq

inductive ConditionOf (ρ : Type) where
  /-- Whether a group has matched. -/
  | reference (text : String)
  | assertion (behind negated : Bool) (element : ρ) (span : Span)

inductive Greediness where
  | greedy
  | lazy
  | possessive
deriving DecidableEq

structure Quantifier where
  min : Nat
  /-- The largest number, if there is one. -/
  max : Option Nat
  greediness : Greediness
deriving DecidableEq

inductive BoundaryKind where
  | lineStart
  | lineEnd
  | inputStart
  | inputEnd
  /-- The end of the input or of its last line. -/
  | inputEndFinalTerminator
  | previousMatchEnd
  | word
  | nonWord
  /-- The place where the reported match is to start. -/
  | matchStartReset
deriving DecidableEq

inductive Regex where
  | sequence (items : List Regex) (span : Span)
  | disjunction (alternatives : List Regex) (span : Span)
  | group (kind : GroupKind) (element : Option Regex) (span : Span)
  | conditional (condition : ConditionOf Regex) (yes : Regex) (no : Option Regex) (span : Span)
  | repetition (element : Regex) (quantifier : Quantifier) (span : Span)
  | character (c : Character)
  | dot (span : Span)
  | boundary (kind : BoundaryKind) (span : Span)
  | backReference (reference : String) (span : Span)
  | escapedClass (e : EscapedClass)
  | characterClass (c : CharacterClass)

abbrev Condition := ConditionOf Regex

def Regex.span : Regex → Span
  | sequence _ s => s
  | disjunction _ s => s
  | group _ _ s => s
  | conditional _ _ _ s => s
  | repetition _ _ s => s
  | character c => c.span
  | dot s => s
  | boundary _ s => s
  | backReference _ s => s
  | escapedClass e => e.span
  | characterClass c => c.span

end PhpSyntax.Pattern
