import PhpSyntax.Proofs.Pattern.Groups
import PhpSyntax.Proofs.Pattern.Scopes.Walk

namespace PhpSyntax.Pattern

structure Reader.Steps (r r' : Reader) : Prop extends Advances r r' where
  flags : r'.flags = r.flags

open Reading Reader

instance : ReadingOrder Steps where
  refl r := ⟨.refl r, rfl⟩
  trans h h' := ⟨h.toAdvances.trans h'.toAdvances, h'.flags.trans h.flags⟩
  skip r n := ⟨.skip r n, rfl⟩
  report r fault span := ⟨.report r fault span, rfl⟩

variable {r : Reader} {α β : Type}

theorem Reading.Does.steps {x : Reading α} {f : α → Reading β} {Q : β → Reader → Prop}
    (hx : MovesIn Steps x) (hf : ∀ a r', Steps r r' → Does r' (f a) Q) : Does r (x >>= f) Q :=
  have h := hf _ _ (hx r)
  ⟨(hx r).toAdvances.trans h.1, h.2⟩

theorem Reading.Does.steps_and {x : Reading α} {Q : α → Reader → Prop} (h : Does r x Q)
    (hx : MovesIn Steps x) : Does r x fun a r' => r'.flags = r.flags ∧ Q a r' :=
  ⟨h.1, fun he => ⟨(hx r).flags, h.2 he⟩⟩

section Class

/-- The flags do not change while members of a class are read, and the unions in them note these
flags. -/
def Notes (r : Reader) (x : Reading α) (members : α → List ClassElement) : Prop :=
  Does r x fun a r' => r'.flags = r.flags ∧
    ∀ e ∈ members a, (Part.member e).Holds fun u => u.flags = r.flags

theorem notes_of_simple {x : Reading α} {members : α → List ClassElement} (hx : MovesIn Steps x)
    (h : Does r x fun a _ => ∀ e ∈ members a, e.isSimple) : Notes r x members :=
  (h.steps_and hx).imp fun _ _ _ h => ⟨h.1, fun e he => Part.holds_of_isSimple (h.2 e he)⟩

theorem quotation_notes : Notes r quotation (List.map .character) := by
  refine notes_of_simple quotation_moves ⟨(quotation_moves r), fun _ e he => ?_⟩
  obtain ⟨c, -, rfl⟩ := List.mem_map.mp he
  rfl

theorem leadingBracket_notes : Notes r leadingBracket id :=
  notes_of_simple leadingBracket_moves leadingBracket_simple.does

theorem classMember_notes : Notes r classMember Option.toList :=
  notes_of_simple classMember_moves (classMember_simple.does.imp fun _ _ _ h => by simpa using h)

structure ClassDraft.Notes (flags : Flags) (d : ClassDraft) : Prop where
  elements : ∀ e ∈ d.elements, (Part.member e).Holds fun u => u.flags = flags
  operands : ∀ u ∈ d.operands, (Part.union u).Holds fun u => u.flags = flags

namespace ClassDraft.Notes

variable {flags : Flags} {d : ClassDraft}

theorem add (hd : d.Notes flags) {es : List ClassElement}
    (hes : ∀ e ∈ es, (Part.member e).Holds fun u => u.flags = flags) : (d.add es).Notes flags :=
  ⟨List.forall_mem_append.mpr ⟨hd.elements, hes⟩, hd.operands⟩

theorem next (hd : d.Notes flags) (s : Span) (start : Nat) :
    ClassDraft.Notes flags ⟨d.operands ++ [⟨d.elements, flags, s⟩], start, []⟩ := by
  have h : (Part.union ⟨d.elements, flags, s⟩).Holds fun u => u.flags = flags :=
    Part.holds_union.mpr ⟨rfl, hd.elements⟩
  exact ⟨nofun, List.forall_mem_append.mpr ⟨hd.operands, by simpa using h⟩⟩

theorem union (hd : d.Notes flags) (start stop : Nat) :
    (Part.union (d.union flags start stop)).Holds fun u => u.flags = flags := by
  refine Part.holds_union.mpr ⟨rfl, ?_⟩
  unfold ClassDraft.union
  dsimp only
  split
  · exact hd.elements
  · simp only [List.mem_singleton, forall_eq]
    exact Part.holds_member.mpr (Part.holds_intersection.mpr (hd.next ⟨d.start, stop⟩ start).operands)

end ClassDraft.Notes

def NotesClass (r : Reader) (x : Reading CharacterClass) : Prop :=
  Does r x fun c r' => r'.flags = r.flags ∧ (Part.union c.union).Holds fun u => u.flags = r.flags

variable {inner : Reading CharacterClass} (hinner : ∀ r, NotesClass r inner)
include hinner

theorem innerClass_notes : Notes r (innerClass inner) ([·]) := by
  refine .get ?_
  split
  · refine .skip (.spanFrom (.pure fun _ => ⟨rfl, ?_⟩))
    simp only [List.mem_singleton, forall_eq]
    exact Part.holds_member.mpr (Part.holds_of_children_eq_nil rfl nofun)
  · refine .bind (hinner r) fun c _ _ => .pure fun _ h => ⟨h.1, ?_⟩
    simpa using Part.holds_member.mpr (Part.holds_characterClass.mpr h.2)

theorem classMembers_notes (rounds : Nat) (draft : ClassDraft) :
    Does r (classMembers inner rounds draft) fun result r' =>
      r'.flags = r.flags ∧ (draft.Notes r.flags → result.1.Notes r.flags) := by
  induction rounds generalizing r draft with
  | zero => exact .get (.pure fun _ => ⟨rfl, id⟩)
  | succ rounds ih =>
    refine .steps skipClassBlanks_moves fun _ r₁ h₁ => .get ?_
    rw [← h₁.flags]
    have hmore : ∀ (es : List ClassElement) (r₂ : Reader),
        Does r₂ (classMembers inner rounds (draft.add es)) fun result r' =>
          (r₂.flags = r₁.flags ∧ ∀ e ∈ es, (Part.member e).Holds fun u => u.flags = r₁.flags) →
            r'.flags = r₁.flags ∧ (draft.Notes r₁.flags → result.1.Notes r₁.flags) := by
      intro es r₂
      refine (ih (draft.add es)).imp fun result r' _ h hes => ?_
      rw [hes.1] at h
      exact ⟨h.1, fun hd => h.2 (hd.add hes.2)⟩
    dsimp only
    split
    · exact .expected (.pure _)
    · exact .skip (.pure fun _ => ⟨rfl, id⟩)
    · refine .skip (.get ((ih _).imp fun result r' _ h => ⟨h.1, fun hd => h.2 (hd.next _ _)⟩))
    · exact .bind (innerClass_notes hinner) fun e r₂ _ => hmore [e] r₂
    · exact .bind quotation_notes fun cs r₂ _ => hmore (cs.map .character) r₂
    · exact .skip (ih _)
    · exact .bind classMember_notes fun e r₂ _ => hmore e.toList r₂

theorem bracketsWith_notes : NotesClass r (bracketsWith inner) := by
  refine .get (.skip (.steps (.eat _) fun negated r₁ h₁ => .get ?_))
  have hflags : r₁.flags = r.flags := h₁.flags
  rw [← hflags]
  refine .bind leadingBracket_notes fun first r₂ _ => .get ?_
  refine .bind (classMembers_notes hinner _ _) fun result r₃ _ => .get (.pure ?_)
  intro _ hmembers hfirst
  rw [hfirst.1] at hmembers
  refine ⟨hmembers.1, ?_⟩
  have h := (hmembers.2 ⟨hfirst.2, nofun⟩).union r₁.offset result.2
  rwa [hmembers.1]

end Class

end PhpSyntax.Pattern
