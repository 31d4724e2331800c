import PhpSyntax.Pattern.Regex

/-!
The parts of a regular expression in the order in which they are read. Each regular expression is
visited as such and then as what it is, and so is each member of a class.
-/

namespace PhpSyntax.Pattern

inductive Part where
  | regex (tree : Regex)
  | sequence (items : List Regex) (span : Span)
  | disjunction (alternatives : List Regex) (span : Span)
  | group (kind : GroupKind) (element : Option Regex) (span : Span)
  | conditional (condition : Condition) (yes : Regex) (no : Option Regex) (span : Span)
  | repetition (element : Regex) (quantifier : Quantifier) (span : Span)
  | character (c : Character)
  | dot (span : Span)
  | boundary (kind : BoundaryKind) (span : Span)
  | backReference (reference : String) (span : Span)
  | escapedClass (e : EscapedClass)
  | characterClass (c : CharacterClass)
  | union (u : ClassUnion)
  | member (e : ClassElement)
  | range (r : ClassRange)
  | posix (p : PosixClass)
  | intersection (operands : List ClassUnion) (span : Span)

namespace Part

def ofRegex : Regex → Part
  | .sequence items s => sequence items s
  | .disjunction alternatives s => disjunction alternatives s
  | .group kind element s => group kind element s
  | .conditional condition yes no s => conditional condition yes no s
  | .repetition element quantifier s => repetition element quantifier s
  | .character c => character c
  | .dot s => dot s
  | .boundary kind s => boundary kind s
  | .backReference reference s => backReference reference s
  | .escapedClass e => escapedClass e
  | .characterClass c => characterClass c

def ofElement : ClassElement → Part
  | .character c => character c
  | .range r => range r
  | .escapedClass e => escapedClass e
  | .posix p => posix p
  | .nested c => characterClass c
  | .intersection operands s => intersection operands s

def ofCondition : Condition → List Part
  | .reference _ => []
  | .assertion behind negated element s => [group (.lookaround behind negated) (some element) s]

def children : Part → List Part
  | regex tree => [ofRegex tree]
  | sequence items _ => items.map regex
  | disjunction alternatives _ => alternatives.map regex
  | group _ element _ => element.toList.map regex
  | conditional condition yes no _ =>
    ofCondition condition ++ regex yes :: no.toList.map regex
  | repetition element _ _ => [regex element]
  | characterClass c => [union c.union]
  | union u => u.elements.map member
  | member e => [ofElement e]
  | range r => [character r.first, character r.last]
  | intersection operands _ => operands.map union
  | _ => []

noncomputable def weight : Part → Nat
  | regex tree => 2 * sizeOf tree + 2
  | sequence items _ => 2 * sizeOf items + 1
  | disjunction alternatives _ => 2 * sizeOf alternatives + 1
  | group _ element _ => 2 * sizeOf element + 1
  | conditional condition yes no _ => 2 * (sizeOf condition + sizeOf yes + sizeOf no) + 3
  | repetition element _ _ => 2 * sizeOf element + 3
  | characterClass c => 2 * sizeOf c + 1
  | union u => 2 * sizeOf u + 1
  | member e => 2 * sizeOf e + 2
  | range _ => 1
  | intersection operands _ => 2 * sizeOf operands + 1
  | _ => 0

theorem weight_ofRegex (tree : Regex) : (ofRegex tree).weight < (regex tree).weight := by
  cases tree <;> simp +arith [ofRegex, weight]

theorem weight_ofElement (e : ClassElement) : (ofElement e).weight < (member e).weight := by
  cases e <;> simp +arith [ofElement, weight]

theorem weight_children {part child : Part} (h : child ∈ part.children) :
    child.weight < part.weight := by
  cases part with
  | regex tree =>
    obtain rfl : child = ofRegex tree := by simpa [children] using h
    exact weight_ofRegex tree
  | member e =>
    obtain rfl : child = ofElement e := by simpa [children] using h
    exact weight_ofElement e
  | sequence items s | disjunction items s =>
    obtain ⟨item, hm, rfl⟩ := List.mem_map.1 h
    have := List.sizeOf_lt_of_mem hm
    simp only [weight]
    omega
  | intersection operands s =>
    obtain ⟨operand, hm, rfl⟩ := List.mem_map.1 h
    have := List.sizeOf_lt_of_mem hm
    simp only [weight]
    omega
  | union u =>
    obtain ⟨e, hm, rfl⟩ := List.mem_map.1 h
    have := List.sizeOf_lt_of_mem hm
    cases u
    simp only [weight, UnionOf.mk.sizeOf_spec] at *
    omega
  | group kind element s =>
    obtain ⟨e, hm, rfl⟩ := List.mem_map.1 h
    obtain rfl : element = some e := by simpa using hm
    simp +arith [weight]
  | conditional condition yes no s =>
    simp only [children, List.mem_append, List.mem_cons, List.mem_map, Option.mem_toList] at h
    obtain h | rfl | ⟨e, rfl, rfl⟩ := h
    · cases condition with
      | reference text => simp [ofCondition] at h
      | assertion behind negated e s =>
        obtain rfl : child = group (.lookaround behind negated) (some e) s := by
          simpa [ofCondition] using h
        simp +arith [weight]
    · simp +arith [weight]
    · simp +arith [weight]
  | repetition e q s =>
    obtain rfl : child = regex e := by simpa [children] using h
    simp [weight]
  | characterClass c =>
    obtain rfl : child = union c.union := by simpa [children] using h
    cases c
    simp +arith [weight]
  | range r =>
    obtain rfl | rfl : child = character r.first ∨ child = character r.last := by
      simpa [children] using h
    all_goals simp [weight]
  | _ => simp [children] at h

/-- The part and the parts inside it, each before those inside it. Only parts that `enter` accepts
are looked into. -/
def visit (enter : Part → Bool) (part : Part) : List Part :=
  part :: if enter part then part.children.attach.flatMap fun ⟨c, _⟩ => c.visit enter else []
termination_by part.weight
decreasing_by exact weight_children ‹_›

def isWrapper : Part → Bool
  | regex _ | member _ => true
  | _ => false

def rows (depth : Nat) (part : Part) : List (Nat × Part) :=
  let inner := if part.isWrapper then depth else depth + 1
  let nested := part.children.attach.flatMap fun ⟨c, _⟩ => c.rows inner
  if part.isWrapper then nested else (depth, part) :: nested
termination_by part.weight
decreasing_by exact weight_children ‹_›

end Part

/-- All parts of a regular expression, those that `enter` refuses with nothing inside them. -/
def Regex.visit (enter : Part → Bool) (tree : Regex) : List Part :=
  (Part.regex tree).visit enter

def Regex.rows (tree : Regex) : List (Nat × Part) :=
  (Part.regex tree).rows 0

def Regex.unions (tree : Regex) : List ClassUnion :=
  (tree.visit fun _ => true).filterMap fun
    | .union u => some u
    | _ => none

end PhpSyntax.Pattern
