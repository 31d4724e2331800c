import PhpSyntax.Grammar.File
import PhpSyntax.Proofs.Pattern.Duplicates
import PhpSyntax.Proofs.Pattern.Analysed
import PhpSyntax.Proofs.Pattern.ClassSet.Elements

/-!
Whether a file can be checked to its end. A class set is made for the code points of characters;
escapes can write larger ones, and a set in which a run starts there cannot be searched.
-/

namespace PhpSyntax.Pattern

/-- The search comes to an end, unless it tells of an inverted range. -/
def DuplicateSearch.Checks : Except ClassSetFault DuplicateSearch → Prop
  | .ok search => search.seen.Valid
  | .error (.invertedRange ..) => True
  | .error (.reversedRun ..) => False

theorem DuplicateSearch.step_checks {flags : Flags} {search : DuplicateSearch} {e : ClassElement}
    {n : Nat} (hs : search.seen.Valid) (he : (Part.member e).StartsBounded) :
    Checks (search.step flags (e, n)) := by
  have hadds := ClassSet.ofElement_adds he flags n
  cases hinv : e.inverted? with
  | some r =>
    rw [hinv] at hadds
    rw [step, show ClassSet.ofElement e flags n = _ from hadds]
    trivial
  | none =>
    rw [hinv] at hadds
    obtain ⟨set, hset, hvalid, -⟩ := hadds
    obtain ⟨overlapping, hinter, -⟩ := ClassSet.intersections_ok hs hvalid
    obtain ⟨seen, hseen, hvalid', -⟩ := ClassSet.addSet_ok hs hvalid
    simp only [step, hset, hinter, hseen, bind, Except.bind, pure, Except.pure]
    exact hvalid'

theorem duplicatePlaces_checks {u : ClassUnion} (hu : (Part.union u).StartsBounded) :
    DuplicateSearch.Checks
      (u.elements.zipIdx.foldlM (DuplicateSearch.step u.flags) ⟨.empty, []⟩) := by
  refine DuplicateSearch.foldlM_steps (Q := fun _ result => DuplicateSearch.Checks result)
    (fun _ _ h => h) (fun n e search he hs => ?_) ClassSet.valid_empty
  exact DuplicateSearch.step_checks hs (hu.members e (List.mem_of_getElem? he))

/-- A union is checked, or left unchecked because of an inverted range. -/
theorem unionFinding_returns (source : DelimitedPattern) {u : ClassUnion}
    (hu : (Part.union u).StartsBounded) : ∃ finding, unionFinding source u = .ok finding := by
  have hchecks := duplicatePlaces_checks hu
  unfold unionFinding duplicates duplicatePlaces
  cases h : u.elements.zipIdx.foldlM (DuplicateSearch.step u.flags) ⟨.empty, []⟩ with
  | ok search => exact ⟨_, rfl⟩
  | error fault =>
    rw [h] at hchecks
    cases fault with
    | invertedRange => exact ⟨_, rfl⟩
    | reversedRun => exact hchecks.elim

theorem checkedUnions_startsBounded {tree : Regex} (h : (Part.regex tree).StartsBounded) :
    ∀ u ∈ checkedUnions tree, (Part.union u).StartsBounded := by
  intro u hu e he
  obtain ⟨part, hpart, hmatch⟩ := List.mem_filterMap.mp hu
  split at hmatch
  · cases hmatch
    exact h e (Part.visit_trans (Part.visit_subset _ _ hpart) he)
  · simp at hmatch

theorem patternFindings_returns {p : AnalysedPattern}
    (h : (Part.regex p.parsed.tree).StartsBounded) : ∃ findings, patternFindings p = .ok findings := by
  obtain ⟨found, hfound⟩ := mapM_returns fun u hu =>
    unionFinding_returns p.source (checkedUnions_startsBounded h u hu)
  exact ⟨found.filterMap id, by rw [patternFindings, hfound]; rfl⟩

/-- The findings about a file are returned, whatever its patterns are, if the members of their
classes start with code points of characters. -/
theorem duplicatesInCharacterClass_returns {tree : Tree}
    (h : ∀ p ∈ analysedPatterns tree, (Part.regex p.parsed.tree).StartsBounded) :
    ∃ findings, duplicatesInCharacterClass tree = .ok findings := by
  obtain ⟨found, hfound⟩ := mapM_returns fun p hp => patternFindings_returns (h p hp)
  exact ⟨found.flatten, by rw [duplicatesInCharacterClass, hfound]; rfl⟩

/-- The largest code point is that of a character. -/
theorem duplicatesInCharacterClass_returns_largest :
    let source := "<?php preg_match('/[\\x\x7b10FFFF\x7da\\x\x7b10ffff\x7d]/', $s);"
    ∃ tree, Grammar.parseSource source = .ok tree ∧ analysedPatterns tree ≠ [] ∧
      (∀ p ∈ analysedPatterns tree, (Part.regex p.parsed.tree).StartsBounded) ∧
      ∃ findings, duplicatesInCharacterClass tree = .ok findings := by
  intro source
  have h : (Grammar.parseSource source).toOption.any fun tree =>
      !(analysedPatterns tree).isEmpty &&
        decide (∀ p ∈ analysedPatterns tree, (Part.regex p.parsed.tree).StartsBounded) := by
    decide +kernel
  obtain ⟨tree, htree, h⟩ := (Option.any_eq_true _ _).mp h
  simp only [Bool.and_eq_true, Bool.not_eq_true', List.isEmpty_eq_false_iff, decide_eq_true_eq] at h
  exact ⟨tree, eq_ok_of_toOption htree, h.1, h.2, duplicatesInCharacterClass_returns h.2⟩

/-- The next code point has a run that starts after the end of all runs, and a set with other
members is asked for the code points from there to that end. -/
theorem duplicatesInCharacterClass_fails :
    let source := "<?php preg_match('/[\\x\x7b110000\x7da]/', $s);"
    ∃ tree, Grammar.parseSource source = .ok tree ∧
      duplicatesInCharacterClass tree = .error (.reversedRun 0x110000 0x10FFFF) := by
  intro source
  have h : (Grammar.parseSource source).toOption.any fun tree =>
      decide (duplicatesInCharacterClass tree = .error (.reversedRun 0x110000 0x10FFFF)) := by
    decide +kernel
  obtain ⟨tree, htree, h⟩ := (Option.any_eq_true _ _).mp h
  exact ⟨tree, eq_ok_of_toOption htree, of_decide_eq_true h⟩

end PhpSyntax.Pattern
