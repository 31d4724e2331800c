import PhpSyntax.Pattern.Parse

namespace PhpSyntax.Pattern

def Span.move (f : Nat → Nat) (s : Span) : Span :=
  ⟨f s.start, f s.stop⟩

def SourceChar.move (f : Nat → Nat) (c : SourceChar) : SourceChar :=
  { c with span := c.span.move f }

@[simp]
theorem SourceChar.move_char (f : Nat → Nat) (c : SourceChar) : (c.move f).char = c.char := rfl

def Character.move (f : Nat → Nat) (c : Character) : Character :=
  { c with span := c.span.move f }

def EscapedClass.move (f : Nat → Nat) (e : EscapedClass) : EscapedClass :=
  { e with span := e.span.move f }

def ClassRange.move (f : Nat → Nat) (r : ClassRange) : ClassRange :=
  ⟨r.first.move f, r.last.move f, r.span.move f⟩

def PosixClass.move (f : Nat → Nat) (p : PosixClass) : PosixClass :=
  { p with span := p.span.move f }

mutual

@[simp]
def ClassElement.move (f : Nat → Nat) : ClassElement → ClassElement
  | .character c => .character (c.move f)
  | .range r => .range (r.move f)
  | .escapedClass e => .escapedClass (e.move f)
  | .posix p => .posix (p.move f)
  | .nested ⟨negated, ⟨elements, flags, s⟩, s'⟩ =>
    .nested ⟨negated, ⟨moveElements f elements, flags, s.move f⟩, s'.move f⟩
  | .intersection operands s => .intersection (moveUnions f operands) (s.move f)

def moveElements (f : Nat → Nat) : List ClassElement → List ClassElement
  | [] => []
  | e :: es => e.move f :: moveElements f es

def moveUnions (f : Nat → Nat) : List ClassUnion → List ClassUnion
  | [] => []
  | ⟨elements, flags, s⟩ :: us => ⟨moveElements f elements, flags, s.move f⟩ :: moveUnions f us

end

def moveUnion (f : Nat → Nat) (u : ClassUnion) : ClassUnion :=
  ⟨u.elements.map (·.move f), u.flags, u.span.move f⟩

def moveClass (f : Nat → Nat) (c : CharacterClass) : CharacterClass :=
  ⟨c.negated, moveUnion f c.union, c.span.move f⟩

mutual

@[simp]
def Regex.move (f : Nat → Nat) : Regex → Regex
  | .sequence items s => .sequence (moveRegexes f items) (s.move f)
  | .disjunction alternatives s => .disjunction (moveRegexes f alternatives) (s.move f)
  | .group kind element s => .group kind (moveRegex? f element) (s.move f)
  | .conditional condition yes no s =>
    .conditional (moveCondition f condition) (yes.move f) (moveRegex? f no) (s.move f)
  | .repetition element quantifier s => .repetition (element.move f) quantifier (s.move f)
  | .character c => .character (c.move f)
  | .dot s => .dot (s.move f)
  | .boundary kind s => .boundary kind (s.move f)
  | .backReference reference s => .backReference reference (s.move f)
  | .escapedClass e => .escapedClass (e.move f)
  | .characterClass c => .characterClass (moveClass f c)

def moveRegexes (f : Nat → Nat) : List Regex → List Regex
  | [] => []
  | t :: ts => t.move f :: moveRegexes f ts

def moveRegex? (f : Nat → Nat) : Option Regex → Option Regex
  | none => none
  | some t => some (t.move f)

@[simp]
def moveCondition (f : Nat → Nat) : Condition → Condition
  | .reference text => .reference text
  | .assertion behind negated element s => .assertion behind negated (element.move f) (s.move f)

end

def PatternError.move (f : Nat → Nat) (e : PatternError) : PatternError :=
  { e with span := e.span.move f }

def ParsedPattern.move (f : Nat → Nat) (p : ParsedPattern) : ParsedPattern :=
  ⟨p.tree.move f, p.errors.map (·.move f), p.flags⟩

variable {f : Nat → Nat}

@[simp]
theorem moveElements_eq (es : List ClassElement) : moveElements f es = es.map (·.move f) := by
  induction es with
  | nil => rw [moveElements, List.map_nil]
  | cons e es ih => rw [moveElements, ih, List.map_cons]

@[simp]
theorem moveUnions_eq (us : List ClassUnion) : moveUnions f us = us.map (moveUnion f) := by
  induction us with
  | nil => rw [moveUnions, List.map_nil]
  | cons u us ih => rw [moveUnions, ih, List.map_cons, moveElements_eq, moveUnion]

@[simp]
theorem moveRegexes_eq (ts : List Regex) : moveRegexes f ts = ts.map (·.move f) := by
  induction ts with
  | nil => rw [moveRegexes, List.map_nil]
  | cons t ts ih => rw [moveRegexes, ih, List.map_cons]

@[simp]
theorem moveRegex?_eq (t : Option Regex) : moveRegex? f t = t.map (·.move f) := by
  cases t with
  | none => rw [moveRegex?, Option.map_none]
  | some t => rw [moveRegex?, Option.map_some]

theorem Regex.span_move (t : Regex) : (t.move f).span = t.span.move f := by
  cases t <;> simp [span, Character.move, EscapedClass.move, moveClass]

end PhpSyntax.Pattern
