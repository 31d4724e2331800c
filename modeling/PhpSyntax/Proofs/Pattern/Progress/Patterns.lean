import PhpSyntax.Proofs.Pattern.Progress.Groups

/-!
Reading ends. Every part of a pattern takes a character, so that each round of a loop and each level
of nesting leaves fewer of them, and nothing but a parenthesis that closes no group is left over.
-/

namespace PhpSyntax.Pattern

open Reading Reader

structure Reader.Terminates (r : Reader) : Prop where
  atom : r.rest ≠ [] → ∀ depth, r.rest.length ≤ depth →
    (atom (nestedReaders depth) r).2.rest.length < r.rest.length
  member : r.rest ≠ [] → (classMember r).2.rest.length < r.rest.length
  inner : r.rest ≠ [] → ∀ depth, r.rest.length < depth →
    (innerClass (nestedReaders depth).brackets r).2.rest.length < r.rest.length
  quotation : r.rest ≠ [] → (quotation r).2.rest.length < r.rest.length
  /-- A sequence ends by itself, after at most as many rounds as there are characters and one more. -/
  items : ∀ depth rounds, r.rest.length ≤ depth → r.rest.length < rounds →
    sequenceItems (nestedReaders depth) rounds r =
        sequenceItems (nestedReaders depth) (r.rest.length + 1) r ∧
      (sequenceItems (nestedReaders depth) rounds r).2.endsSequence
  alternatives : r.endsSequence → ∀ depth rounds, r.rest.length ≤ depth → r.rest.length < rounds →
    alternatives (nestedReaders depth) rounds r =
        alternatives (nestedReaders depth) (r.rest.length + 1) r ∧
      (alternatives (nestedReaders depth) rounds r).2.endsGroup
  members : ∀ depth rounds draft, r.rest.length < depth → r.rest.length < rounds →
    classMembers (nestedReaders depth).brackets rounds draft r =
        classMembers (nestedReaders depth).brackets (r.rest.length + 1) draft r ∧
      ClassEnds r (classMembers (nestedReaders depth).brackets rounds draft r).2
  /-- Groups and classes are nested less deeply than there are characters and one more: it makes no
  difference what stands below. -/
  nesting : ∀ bottom depth, r.rest.length < depth →
    (NestedReaders.deepen^[depth] bottom).disjunction r =
      (nestedReaders (r.rest.length + 1)).disjunction r

theorem Reader.terminates (r : Reader) : r.Terminates where
  atom hne depth hle :=
    (atom_takes (nestedReaders_agree hle hle) hne (Nat.lt_succ_self _)).ensures
  member hne := (classMember_takes hne).ensures
  inner hne depth hlt :=
    (innerClass_takes (nestedReaders_agree (Nat.le_refl depth) (Nat.le_refl depth)).brackets hne
      hlt).ensures
  quotation hne := (quotation_takes hne).ensures
  items depth rounds hle hlt :=
    have h := sequenceItems_agrees (nestedReaders_agree hle hle) (Nat.lt_succ_self _) hlt
      (Nat.lt_succ_self _)
    ⟨h.same, h.ensures⟩
  alternatives hends depth rounds hle hlt :=
    have h := alternatives_agrees (nestedReaders_agree hle hle) hends (Nat.lt_succ_self _) hlt
      (Nat.lt_succ_self _)
    ⟨h.same, h.ensures⟩
  members depth rounds draft hdepth hlt :=
    have h := classMembers_agrees (nestedReaders_agree (Nat.le_refl depth) (Nat.le_refl depth)).brackets
      draft hdepth hlt (Nat.lt_succ_self _)
    ⟨h.same, h.ensures⟩
  nesting bottom depth hlt := by
    rw [nestedReaders_eq_iterate (r.rest.length + 1)]
    exact ((NestedReaders.iterate_agrees bottom (nestedReaders 0) hlt
      (Nat.le_refl _)).disjunction r (Nat.lt_succ_self _)).same

theorem finish_eq (r : Reader) :
    finish r = ((), if r.head?.isSome then r.report .unmatchedParenthesis r.currentSpan else r) := by
  change (if r.head?.isSome then _ else _ : Reading Unit) r = _
  split <;> rfl

theorem parseChars_eq {chars : List SourceChar} {flags : Flags} {tree : Regex} {stop : Reader}
    (h : (nestedReaders (chars.length + 1)).disjunction (.ofChars chars flags) = (tree, stop)) :
    parseChars chars flags = ⟨tree, (finish stop).2.errors, flags⟩ := by
  have hrun : parseChars chars flags =
      ⟨((nestedReaders (chars.length + 1)).disjunction (.ofChars chars flags)).1,
        (finish ((nestedReaders (chars.length + 1)).disjunction (.ofChars chars flags)).2).2.errors,
        flags⟩ := rfl
  rw [hrun, h]

/-- Any characters are read to an end, whatever stands below as many levels of nesting as there are
characters. What is left where the alternatives end starts with a parenthesis that closes no group,
which is the last fault. -/
theorem parseChars_terminates (chars : List SourceChar) (flags : Flags) :
    (∀ r : Reader, r.Terminates) ∧
    ∃ stop : Reader, stop.rest <:+ chars ∧
      (∀ bottom depth, chars.length < depth →
        (NestedReaders.deepen^[depth] bottom).disjunction (.ofChars chars flags) =
          ((parseChars chars flags).tree, stop)) ∧
      (stop.rest = [] ∧ (parseChars chars flags).errors = stop.errors ∨
        ∃ c rest e, stop.rest = c :: rest ∧ c.char = ')' ∧
          (parseChars chars flags).errors = stop.errors ++ [e] ∧
          e.fault.message = "Unmatched ')'" ∧ e.span = c.span) ∧
      ((parseChars chars flags).errors = [] → stop.rest = []) := by
  obtain ⟨⟨tree, stop⟩, hstop⟩ : ∃ result,
      (nestedReaders (chars.length + 1)).disjunction (.ofChars chars flags) = result := ⟨_, rfl⟩
  have hread : Agrees (nestedReaders (chars.length + 1)).disjunction
      (nestedReaders (chars.length + 1)).disjunction (.ofChars chars flags) endsGroup :=
    disjunctionWith_agrees (nestedReaders_agree (Nat.le_refl _) (Nat.le_refl _))
      (Nat.lt_succ_self chars.length)
  have hadv := hread.advances
  have hends := hread.ensures
  rw [hstop] at hadv hends
  rw [parseChars_eq hstop, finish_eq]
  refine ⟨Reader.terminates, stop, hadv.suffix, fun bottom depth hlt => ?_, ?_⟩
  · exact ((Reader.terminates _).nesting bottom depth hlt).trans hstop
  · cases hrest : stop.rest with
    | nil => simp [head?, peek?, hrest]
    | cons c rest =>
      have hclose : c.char = ')' := by
        simpa [endsGroup, head?, peek?, hrest] using hends
      refine ⟨.inr ⟨c, rest, ⟨.unmatchedParenthesis, c.span⟩, rfl, hclose, ?_, rfl, rfl⟩, ?_⟩
      · simp [head?, peek?, hrest, Reader.report, currentSpan]
      · simp [head?, peek?, hrest, Reader.report]

end PhpSyntax.Pattern
