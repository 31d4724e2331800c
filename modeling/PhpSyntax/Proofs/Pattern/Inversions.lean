import PhpSyntax.Pattern.Duplicates
import PhpSyntax.Proofs.Pattern.ClassSet.Listed

namespace PhpSyntax.Pattern

/-- The result tells of an inverted range only if there is one, and it is no set if there is one. -/
structure Tells {α : Type} (inverted : Option ClassRange) (result : Except ClassSetFault α) :
    Prop where
  of_ok : ∀ a, result = .ok a → inverted = none
  of_error : ∀ first last span, result = .error (.invertedRange first last span) → inverted ≠ none

namespace Tells

variable {α β : Type} {i j : Option ClassRange} {x y : Except ClassSetFault α}

theorem ok {a : α} : Tells none (.ok a : Except ClassSetFault α) :=
  ⟨fun _ _ => rfl, nofun⟩

theorem reversed {first last : Nat} :
    Tells none (.error (.reversedRun first last) : Except ClassSetFault α) :=
  ⟨nofun, nofun⟩

theorem inverted {r : ClassRange} {first last : Nat} {span : Span} :
    Tells (some r) (.error (.invertedRange first last span) : Except ClassSetFault α) :=
  ⟨nofun, fun _ _ _ _ => nofun⟩

theorem bind {f : α → Except ClassSetFault β} (h : Tells i x) (hf : ∀ a, Tells j (f a)) :
    Tells (i.or j) (x >>= f) := by
  cases x with
  | ok a =>
    rw [h.of_ok a rfl, Option.none_or]
    exact hf a
  | error fault =>
    refine ⟨nofun, fun first last span he => ?_⟩
    cases he
    have hi := h.of_error first last span rfl
    exact fun hor => hi (Option.or_eq_none_iff.mp hor).1

/-- What comes before can only fail for another reason. -/
theorem after {f : α → Except ClassSetFault β} (h : Tells none x) (hf : ∀ a, Tells j (f a)) :
    Tells j (x >>= f) := by
  simpa using h.bind hf

theorem ite {p : Prop} [Decidable p] (hx : Tells i x) (hy : Tells i y) :
    Tells i (if p then x else y) := by
  split
  · exact hx
  · exact hy

theorem foldlM {f : β → α → Except ClassSetFault β} (hf : ∀ b a, Tells none (f b a))
    (as : List α) (b : β) : Tells none (as.foldlM f b) := by
  induction as generalizing b with
  | nil => exact .ok
  | cons a as ih =>
    rw [List.foldlM_cons]
    exact (hf b a).after ih

end Tells

namespace ClassSet

section Operations

variable {ω : Type} (s t : ClassSet ω) (first last : Nat) (flags : Flags) (w : ω)

theorem stepsIn_tells : Tells none (s.stepsIn first last) := by
  unfold stepsIn
  split
  · exact .ok
  split
  · exact .reversed
  · exact .ok

theorem addRun_tells : Tells none (s.addRun first last w) :=
  (s.stepsIn_tells first last).after fun _ => Tells.ok

theorem addRanges_tells (ranges : List (Nat × Nat)) : Tells none (s.addRanges ranges w) :=
  .foldlM (fun s range => s.addRun_tells range.1 range.2 w) ranges s

theorem addSet_tells : Tells none (s.addSet t) :=
  (Tells.foldlM (fun (s : ClassSet ω) (run : Run ω) => s.addRun_tells run.first run.last run.owner)
    t.runs s).after fun _ => .ok

theorem addBetween_tells (next : Nat) (runs : List (Run ω)) :
    Tells none (addBetween w s next runs) := by
  induction runs generalizing s next with
  | nil => exact .ite (s.addRun_tells _ _ w) .ok
  | cons run rest ih =>
    rw [addBetween]
    split
    · exact (s.addRun_tells _ _ w).after fun t => ih t _
    · exact ih s _

theorem addComplement_tells : Tells none (s.addComplement t w) :=
  s.addBetween_tells w 0 t.runs

theorem addComplementOf_tells (ranges : List (Nat × Nat)) :
    Tells none (s.addComplementOf ranges w) :=
  (empty.addRanges_tells w ranges).after fun t => s.addComplement_tells t w

theorem addCharacter_tells (code : Nat) : Tells none (s.addCharacter code flags w) := by
  refine (s.addRun_tells code code w).after fun t => ?_
  dsimp only
  split
  · exact .ok
  · exact (t.addRun_tells _ _ w).after fun u => u.addRun_tells _ _ w

theorem addRange_tells : Tells none (s.addRange first last flags w) := by
  unfold addRange
  split
  · exact s.addRun_tells first last w
  dsimp only
  split
  · exact s.addRun_tells first last w
  · exact s.addRanges_tells w _

theorem addEscapedClass_tells (letter : Char) : Tells none (s.addEscapedClass letter flags w) := by
  have words : ∀ ranges, Tells none (do
      let sum ← s.addRanges ranges w
      return { sum with unknown := sum.unknown || flags.unicodeClass }) :=
    fun ranges => (s.addRanges_tells w ranges).after fun _ => .ok
  unfold addEscapedClass
  dsimp only
  split
  · exact words digitRanges
  · exact words wordRanges
  · exact .ite .ok (s.addComplementOf_tells w _)
  · exact .ite .ok (s.addComplementOf_tells w _)
  · exact s.addRanges_tells w _
  · exact s.addComplementOf_tells w _
  · exact s.addRanges_tells w _
  · exact s.addComplementOf_tells w _
  · exact s.addRanges_tells w _
  · exact s.addComplementOf_tells w _
  · exact .ok

theorem addNested_tells (negated : Bool) : Tells none (s.addNested t negated w) :=
  .ite (s.addSet_tells t) (.ite .ok (s.addComplement_tells t w))

theorem intersects_tells : Tells none (s.intersects first last) :=
  .ite .ok ((s.stepsIn_tells first last).after fun _ => .ok)

theorem intersections_tells [DecidableEq ω] : Tells none (s.intersections t) := by
  unfold intersections
  refine .foldlM (fun owners run => ?_) s.runs []
  refine (t.intersects_tells run.first run.last).after fun found => ?_
  cases found
  · exact .ok
  · exact .ok

end Operations

mutual

theorem addElement_tells {ω : Type} (flags : Flags) (w : ω) (s : ClassSet ω) :
    ∀ e : ClassElement, Tells e.inverted? (addElement flags w s e)
  | .character c => by
    rw [addElement, ClassElement.inverted?]
    exact s.addCharacter_tells flags w c.codePoint
  | .range r => by
    rw [addElement, ClassElement.inverted?]
    split
    · exact .inverted
    · exact s.addRange_tells _ _ flags w
  | .escapedClass e => by
    rw [addElement, ClassElement.inverted?]
    exact s.addEscapedClass_tells flags w e.letter
  | .posix _ => by
    rw [addElement, ClassElement.inverted?]
    exact .ok
  | .nested ⟨negated, ⟨elements, flags, _⟩, _⟩ => by
    rw [addElement, ClassElement.inverted?, ← Option.or_none (o := firstInverted? elements)]
    exact (addElements_tells flags w empty elements).bind fun t => s.addNested_tells t w negated
  | .intersection _ _ => by
    rw [addElement, ClassElement.inverted?]
    exact .ok

theorem addElements_tells {ω : Type} (flags : Flags) (w : ω) (s : ClassSet ω) :
    ∀ es : List ClassElement, Tells (firstInverted? es) (addElements flags w s es)
  | [] => by
    rw [addElements, firstInverted?]
    exact .ok
  | e :: es => by
    rw [addElements, firstInverted?]
    exact (addElement_tells flags w s e).bind fun t => addElements_tells flags w t es

end

mutual

/-- The range that is told of is the first one that is inverted. -/
theorem addElement_names {ω : Type} {flags : Flags} {w : ω} {s : ClassSet ω} {first last : Nat}
    {span : Span} : ∀ e : ClassElement,
      addElement flags w s e = .error (.invertedRange first last span) →
        ∃ r, e.inverted? = some r ∧ first = r.first.codePoint ∧ last = r.last.codePoint ∧
          span = r.span
  | .character c, h => by
    rw [addElement] at h
    exact absurd rfl ((s.addCharacter_tells flags w c.codePoint).of_error _ _ _ h)
  | .range r, h => by
    rw [addElement] at h
    rw [ClassElement.inverted?]
    split
    · rename_i hlt
      rw [if_pos hlt] at h
      cases h
      exact ⟨r, rfl, rfl, rfl, rfl⟩
    · rename_i hle
      rw [if_neg hle] at h
      exact absurd rfl ((s.addRange_tells _ _ flags w).of_error _ _ _ h)
  | .escapedClass e, h => by
    rw [addElement] at h
    exact absurd rfl ((s.addEscapedClass_tells flags w e.letter).of_error _ _ _ h)
  | .nested ⟨negated, ⟨elements, flags, _⟩, _⟩, h => by
    rw [addElement] at h
    rw [ClassElement.inverted?]
    cases hinner : addElements flags w empty elements with
    | error fault =>
      rw [hinner] at h
      cases h
      exact addElements_names elements hinner
    | ok inner =>
      rw [hinner] at h
      exact absurd rfl ((s.addNested_tells inner w negated).of_error _ _ _ h)
  | .posix _, h => by
    rw [addElement] at h
    cases h
  | .intersection _ _, h => by
    rw [addElement] at h
    cases h

theorem addElements_names {ω : Type} {flags : Flags} {w : ω} {s : ClassSet ω} {first last : Nat}
    {span : Span} : ∀ es : List ClassElement,
      addElements flags w s es = .error (.invertedRange first last span) →
        ∃ r, firstInverted? es = some r ∧ first = r.first.codePoint ∧ last = r.last.codePoint ∧
          span = r.span
  | [], h => by
    rw [addElements] at h
    cases h
  | e :: es, h => by
    rw [addElements] at h
    rw [firstInverted?]
    cases he : addElement flags w s e with
    | error fault =>
      rw [he] at h
      cases h
      obtain ⟨r, hr, htold⟩ := addElement_names e he
      exact ⟨r, by rw [hr, Option.some_or], htold⟩
    | ok t =>
      rw [he] at h
      rw [(addElement_tells flags w s e).of_ok t he, Option.none_or]
      exact addElements_names es h

end

end ClassSet

theorem DuplicateSearch.step_tells (flags : Flags) (search : DuplicateSearch) (e : ClassElement)
    (n : Nat) : Tells e.inverted? (search.step flags (e, n)) := by
  rw [← Option.or_none (o := e.inverted?)]
  refine (ClassSet.addElement_tells flags n .empty e).bind fun set => ?_
  refine (search.seen.intersections_tells set).after fun overlapping => ?_
  exact (search.seen.addSet_tells set).after fun _ => .ok

theorem foldlM_step_tells (flags : Flags) (es : List ClassElement) (n : Nat)
    (search : DuplicateSearch) :
    Tells (firstInverted? es) ((es.zipIdx n).foldlM (DuplicateSearch.step flags) search) := by
  induction es generalizing n search with
  | nil => exact .ok
  | cons e es ih =>
    rw [List.zipIdx_cons, List.foldlM_cons, firstInverted?]
    exact (search.step_tells flags e n).bind fun search => ih (n + 1) search

/-- A union has no list of duplicates exactly if it has an inverted range. -/
theorem duplicates_tells (u : ClassUnion) :
    Tells (firstInverted? u.elements) (duplicates u) := by
  have h := (foldlM_step_tells u.flags u.elements 0 ⟨.empty, []⟩).bind (j := none)
    fun search => Tells.ok (a := search.duplicates)
  have h' := h.bind (j := none) fun places =>
    Tells.ok (a := places.filterMap fun i => u.elements[i]?)
  rwa [Option.or_none, Option.or_none] at h'

end PhpSyntax.Pattern
