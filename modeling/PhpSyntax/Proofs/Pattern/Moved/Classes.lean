import PhpSyntax.Proofs.Pattern.Moved.Readings

namespace PhpSyntax.Pattern

open Reading

variable {f : ℕ →o ℕ} {r : Reader}

theorem classAtom_carries :
    Carries f (Option.map (ClassElement.move f)) r classAtom classAtom := by
  refine .get ?_
  rw [Reader.move_offset, Reader.move_head?]
  generalize r.offset = start
  dsimp only
  split
  · exact .pure rfl
  · refine .bind (.skip 1) fun _ r => .get ?_
    rw [Reader.move_head?]
    split
    · exact .bind (.expected _) fun _ _ => .pure rfl
    · rename_i letter _
      refine .ite (.bind (escapedClass_carries start letter) fun _ _ => .pure (by simp)) ?_
      refine .ite ?_ (.ite ?_ ?_)
      · exact .bind (.skip 1) fun _ _ => .bind (.spanFrom start) fun _ _ => .pure (by
          simp [Character.move])
      · exact .bind (digits_carries 8 3) fun _ _ => .bind (.spanFrom start) fun _ _ => .pure (by
          simp [Character.move])
      · refine .bind (characterEscape_carries start) fun c _ => .pure ?_
        cases c <;> simp
  · exact .bind (.plainCharacter _) fun _ _ => .pure (by simp)

theorem classMember_carries :
    Carries f (Option.map (ClassElement.move f)) r classMember classMember := by
  refine .bind classAtom_carries fun atom r => ?_
  match atom with
  | some (.character first) =>
    rw [Option.map_some, ClassElement.move]
    refine .get ?_
    rw [Reader.move_seesRange]
    refine .ite (.bind (.skip 1) fun _ r => .bind classAtom_carries fun second r => ?_)
      (.pure (by simp))
    match second with
    | some (.character last) =>
      rw [Option.map_some, ClassElement.move]
      exact .pure (by simp [ClassRange.move, Character.move, Span.move])
    | none | some (.range _) | some (.escapedClass _) | some (.posix _) | some (.nested _)
    | some (.intersection ..) => exact .pure (by simp)
  | none | some (.range _) | some (.escapedClass _) | some (.posix _) | some (.nested _)
  | some (.intersection ..) => exact .pure (by simp)

theorem skipClassBlanks_carries : Carries f id r skipClassBlanks skipClassBlanks := by
  refine .get ?_
  rw [Reader.move_runLength]
  exact .ite (.skip _) (.pure rfl)

theorem leadingBracket_carries :
    Carries f (List.map (ClassElement.move f)) r leadingBracket leadingBracket := by
  refine .get ?_
  rw [Reader.move_sees]
  exact .ite (.bind (.plainCharacter _) fun _ _ => .pure (by simp)) (.pure rfl)

def ClassDraft.move (f : Nat → Nat) (d : ClassDraft) : ClassDraft :=
  ⟨d.operands.map (moveUnion f), f d.start, d.elements.map (·.move f)⟩

theorem ClassDraft.move_add (d : ClassDraft) (elements : List ClassElement) :
    (d.move f).add (elements.map (·.move f)) = (d.add elements).move f := by
  simp [add, move]

theorem ClassDraft.move_union (d : ClassDraft) (flags : Flags) (start stop : Nat) :
    (d.move f).union flags (f start) (f stop) = moveUnion f (d.union flags start stop) := by
  simp only [union, move, List.isEmpty_map]
  split
  · rfl
  · simp [moveUnion, Span.move]

section Brackets

variable {inner : Reading CharacterClass} (hinner : ∀ r, Carries f (moveClass f) r inner inner)
include hinner

theorem innerClass_carries :
    Carries f (ClassElement.move f) r (innerClass inner) (innerClass inner) := by
  refine .get ?_
  rw [Reader.move_posix?, Reader.move_offset]
  split
  · exact .bind (.skip _) fun _ _ => .bind (.spanFrom _) fun _ _ => .pure (by simp [PosixClass.move])
  · exact .bind (hinner _) fun _ _ => .pure (by simp [moveClass, moveUnion])

theorem classMembers_carries (rounds : Nat) (draft : ClassDraft) :
    Carries f (Prod.map (ClassDraft.move f) f) r (classMembers inner rounds draft)
      (classMembers inner rounds (draft.move f)) := by
  induction rounds generalizing r draft with
  | zero =>
    refine .get ?_
    rw [Reader.move_offset]
    exact .pure rfl
  | succ rounds ih =>
    refine .bind skipClassBlanks_carries fun _ r => .get ?_
    rw [Reader.move_head?, Reader.move_peek?, Reader.move_offset, Reader.move_flags]
    split
    · exact .bind (.expected _) fun _ _ => .pure rfl
    · exact .bind (.skip 1) fun _ _ => .pure rfl
    · refine .bind (.skip 2) fun _ r' => .get ?_
      rw [Reader.move_offset]
      have h := ih (r := r') ⟨draft.operands ++
        [⟨draft.elements, r.flags, ⟨draft.start, r.offset⟩⟩], r'.offset, []⟩
      rwa [ClassDraft.move, List.map_append] at h
    · refine .bind (innerClass_carries hinner) fun element r' => ?_
      exact draft.move_add [element] ▸ ih _
    · refine .bind quotation_carries fun quoted r' => ?_
      have h := ih (r := r') (draft.add (quoted.map .character))
      rw [← ClassDraft.move_add, List.map_map] at h
      rw [List.map_map]
      simpa [Function.comp_def] using h
    · exact .bind (.skip 2) fun _ _ => ih _
    · refine .bind classMember_carries fun element r' => ?_
      have h := ih (r := r') (draft.add element.toList)
      rw [← ClassDraft.move_add] at h
      cases element <;> exact h

theorem bracketsWith_carries :
    Carries f (moveClass f) r (bracketsWith inner) (bracketsWith inner) := by
  refine .get ?_
  rw [Reader.move_offset]
  generalize r.offset = start
  refine .bind (.skip 1) fun _ _ => .bind (.eat _) fun negated r => .get ?_
  rw [Reader.move_offset]
  generalize r.offset = unionStart
  refine .bind leadingBracket_carries fun first r => .get ?_
  rw [Reader.move_rest_length]
  refine .bind (classMembers_carries hinner _ ⟨[], unionStart, first⟩) fun draft r => .get ?_
  obtain ⟨draft, unionStop⟩ := draft
  refine .pure ?_
  simp only [ClassDraft.move_union, Reader.move_flags, Reader.move_spanFrom]
  rfl

end Brackets

end PhpSyntax.Pattern
