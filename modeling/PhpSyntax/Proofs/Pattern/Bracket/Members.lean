import PhpSyntax.Proofs.Pattern.Progress.Classes

namespace PhpSyntax.Pattern

open Reading Reader

variable {r : Reader}

def ClassDraft.prepend (es : List ClassElement) (d : ClassDraft) : ClassDraft :=
  match d.operands with
  | [] => { d with elements := es ++ d.elements }
  | u :: us => { d with operands := { u with elements := es ++ u.elements } :: us }

def ClassDraft.leading (d : ClassDraft) : List ClassElement :=
  match d.operands with
  | [] => d.elements
  | u :: _ => u.elements

namespace ClassDraft

variable (es : List ClassElement) (d : ClassDraft)

theorem prepend_add (more : List ClassElement) :
    (d.prepend es).add more = (d.add more).prepend es := by
  obtain ⟨operands, start, elements⟩ := d
  cases operands <;> simp [add, prepend]

theorem prepend_next (flags : Flags) (start stop : Nat) :
    (⟨(d.prepend es).operands ++ [⟨(d.prepend es).elements, flags, ⟨(d.prepend es).start, stop⟩⟩],
        start, []⟩ : ClassDraft) =
      prepend es ⟨d.operands ++ [⟨d.elements, flags, ⟨d.start, stop⟩⟩], start, []⟩ := by
  obtain ⟨operands, first, elements⟩ := d
  cases operands <;> simp [prepend]

theorem leading_prepend : (d.prepend es).leading = es ++ d.leading := by
  obtain ⟨operands, start, elements⟩ := d
  cases operands <;> rfl

end ClassDraft

theorem classMembers_prepend (es : List ClassElement) (inner : Reading CharacterClass)
    (rounds : Nat) (d : ClassDraft) :
    classMembers inner rounds (d.prepend es) =
      Prod.map (ClassDraft.prepend es) id <$> classMembers inner rounds d := by
  induction rounds generalizing d with
  | zero => rfl
  | succ rounds ih =>
    rw [classMembers, classMembers, map_bind]
    refine bind_congr fun _ => ?_
    rw [map_bind]
    refine bind_congr fun r => ?_
    dsimp only
    -- which member comes next is told from the reader alone
    split
    · rfl
    · rfl
    · simp only [map_bind, ClassDraft.prepend_next, ih]
    · simp only [map_bind, ClassDraft.prepend_add, ih]
    · simp only [map_bind, ClassDraft.prepend_add, ih]
    · simp only [map_bind, ih]
    · simp only [map_bind, ClassDraft.prepend_add, ih]

theorem skipClassBlanks_eq {c : Char} (hhead : r.head? = some c)
    (hc : Text.isWhiteSpace c = false) : skipClassBlanks r = ((), r) := by
  obtain ⟨d, cs, hrest, rfl⟩ := exists_rest_of_head hhead
  have hlength : r.runLength Text.isWhiteSpace = 0 := by simp [runLength, hrest, hc]
  change (if r.flags.extended then _ else _ : Reading Unit) r = _
  rw [hlength]
  split <;> rfl

/-- The next character starts a member that is neither a class in brackets nor a quotation. -/
structure Reader.SeesMember (r : Reader) : Prop where
  present : r.head? ≠ none
  blank : ∀ c, r.head? = some c → Text.isWhiteSpace c = false
  close : r.head? ≠ some ']'
  operator : r.head? ≠ some '&'
  inner : r.head? ≠ some '['
  escape : r.head? = some '\\' → r.peek? 1 ≠ some 'Q' ∧ r.peek? 1 ≠ some 'E'

theorem classMembers_member (h : r.SeesMember) (inner : Reading CharacterClass) (rounds : Nat)
    (draft : ClassDraft) :
    classMembers inner (rounds + 1) draft r =
      classMembers inner rounds (draft.add (classMember r).1.toList) (classMember r).2 := by
  obtain ⟨c, hhead⟩ := Option.ne_none_iff_exists'.mp h.present
  rw [classMembers, bind_eq (skipClassBlanks_eq hhead (h.blank c hhead)), bind_eq (x := get) rfl]
  change _ = (do
    let element ← classMember
    classMembers inner rounds (draft.add element.toList) : Reading (ClassDraft × Nat)) r
  refine congrFun ?_ r
  dsimp only
  split
  · exact absurd ‹_› h.present
  · exact absurd ‹_› h.close
  · exact absurd ‹_› h.operator
  · exact absurd ‹_› h.inner
  · exact absurd ‹_› (h.escape ‹_›).1
  · exact absurd ‹_› (h.escape ‹_›).2
  · rfl

theorem seesRange_head? (h : r.seesRange) : r.head? = some '-' := by
  simp only [seesRange, sees, Bool.and_eq_true, decide_eq_true_eq] at h
  exact h.1

theorem seesRange_member (h : r.seesRange) : r.SeesMember := by
  have hhead := seesRange_head? h
  constructor <;> simp [hhead]
  decide

theorem seesRange_escape (h : r.seesRange) (hslash : (r.skip 1).head? = some '\\') :
    (r.skip 1).SeesMember := by
  have hletter : r.peek? 2 ≠ some 'Q' ∧ r.peek? 2 ≠ some 'E' := by
    rw [head?, peek_skip] at hslash
    simp only [seesRange, hslash, Bool.and_eq_true] at h
    have h := h.2
    split at h <;> simp_all
  constructor <;> simp [hslash, peek_skip, hletter]
  decide

def leadingMembers (inner : Reading CharacterClass) (rounds : Nat) (draft : ClassDraft)
    (r : Reader) : List ClassElement :=
  (classMembers inner rounds draft r).1.1.leading

theorem leadingMembers_append (inner : Reading CharacterClass) (rounds : Nat) (start : Nat)
    (es : List ClassElement) (r : Reader) :
    leadingMembers inner rounds ⟨[], start, es⟩ r =
      es ++ leadingMembers inner rounds ⟨[], start, []⟩ r := by
  have h := congrFun (classMembers_prepend es inner rounds ⟨[], start, []⟩) r
  rw [ClassDraft.prepend, List.append_nil] at h
  rw [leadingMembers, h]
  exact ClassDraft.leading_prepend ..

theorem leadingMembers_member (h : r.SeesMember) (inner : Reading CharacterClass)
    (rounds start : Nat) :
    leadingMembers inner (rounds + 1) ⟨[], start, []⟩ r =
      (classMember r).1.toList ++
        leadingMembers inner rounds ⟨[], start, []⟩ (classMember r).2 := by
  rw [← leadingMembers_append, leadingMembers, classMembers_member h]
  rfl

theorem classAtom_plain {c : Char} (hhead : r.head? = some c) (hc : c ≠ '\\') :
    classAtom r = (some (.character ⟨c.toNat, r.currentSpan⟩), r.skip 1) := by
  rw [classAtom, bind_eq (x := get) rfl]
  change _ = (do return some (.character (← plainCharacter c)) : Reading (Option ClassElement)) r
  refine congrFun ?_ r
  rw [hhead]
  split <;> simp_all

theorem classAtom_none {t : Reader} (hne : r.rest ≠ []) (h : classAtom r = (none, t)) :
    r.head? = some '\\' := by
  by_contra hslash
  obtain ⟨c, cs, hrest⟩ := List.exists_cons_of_ne_nil hne
  have hhead : r.head? = some c.char := by simp [head?, peek?, hrest]
  rw [hhead, Option.some_inj] at hslash
  rw [classAtom_plain hhead hslash] at h
  cases h

def Reading.Gives {α : Type} (r : Reader) (x : Reading α) (Q : α → Prop) : Prop :=
  Q (x r).1

namespace Reading.Gives

variable {α β : Type} {x : Reading α} {f : α → Reading β} {P : α → Prop} {Q : β → Prop}

theorem pure {b : β} (h : Q b) : Gives r (pure b) Q := h

theorem bind (hx : Gives r x P) (h : ∀ a r', P a → Gives r' (f a) Q) : Gives r (x >>= f) Q :=
  h _ _ hx

theorem after (h : ∀ a r', Gives r' (f a) Q) : Gives r (x >>= f) Q :=
  h _ _

theorem congr {x y : Reading β} (h : x r = y r) (hy : Gives r y Q) : Gives r x Q := by
  rw [Gives, h]
  exact hy

theorem get {f : Reader → Reading β} (h : Gives r (f r) Q) : Gives r (get >>= f) Q := h

theorem skip {n : Nat} {f : Unit → Reading β} (h : Gives (r.skip n) (f ()) Q) :
    Gives r (skip n >>= f) Q := h

end Reading.Gives

/-- Without an escape that stands for several characters a character is read, or there is a
fault. -/
theorem classAtom_character (h : ¬ r.seesClassEscape) :
    Gives r classAtom fun a => a = none ∨ ∃ c, a = some (ClassElement.character c) := by
  refine .get ?_
  dsimp only
  split
  · exact .pure (.inl rfl)
  · rename_i hslash
    refine .skip (.get ?_)
    split
    · exact .after fun _ _ => .pure (.inl rfl)
    · rename_i letter hletter
      have hplain : ¬ isClassEscape letter := fun hclass =>
        h ⟨hslash, letter, (peek_skip r 1 0).symm.trans hletter, hclass⟩
      rw [if_neg hplain]
      split
      · exact .skip (.after fun _ _ => .pure (.inr ⟨_, rfl⟩))
      split
      · exact .after fun _ _ => .after fun _ _ => .pure (.inr ⟨_, rfl⟩)
      · refine .after fun c _ => .pure ?_
        cases c with
        | none => exact .inl rfl
        | some c => exact .inr ⟨c, rfl⟩
  · exact .after fun _ _ => .pure (.inr ⟨_, rfl⟩)

/-- The member that a range starts. Its start is left where there is no character at its end. -/
def rangeFrom (first : Character) : Option ClassElement → ClassElement
  | some (.character last) => .range ⟨first, last, ⟨first.span.start, last.span.stop⟩⟩
  | _ => .character first

section Member

variable {first : Character} {r' r'' : Reader}

theorem classMember_none (h : classAtom r = (none, r')) : classMember r = (none, r') := by
  rw [classMember, bind_eq h]
  rfl

variable (h : classAtom r = (some (.character first), r'))
include h

theorem classMember_single (hrange : ¬ r'.seesRange) :
    classMember r = (some (.character first), r') := by
  rw [classMember, bind_eq h]
  change (if r'.seesRange then _ else _ : Reading (Option ClassElement)) r' = _
  rw [if_neg hrange]
  rfl

theorem classMember_range {atom : Option ClassElement} (hrange : r'.seesRange)
    (hlast : classAtom (r'.skip 1) = (atom, r'')) :
    classMember r = (some (rangeFrom first atom), r'') := by
  rw [classMember, bind_eq h]
  change (if r'.seesRange then _ else _ : Reading (Option ClassElement)) r' = _
  rw [if_pos hrange, bind_eq (x := skip 1) rfl, bind_eq hlast]
  match atom with
  | some (.character _) => rfl
  | none | some (.range _) | some (.escapedClass _) | some (.posix _) | some (.nested _)
  | some (.intersection ..) => rfl

end Member

/-- A hyphen before a fault is a member, and the fault leaves none. -/
theorem leadingMembers_hyphen {t : Reader} (hrange : r.seesRange)
    (hlast : classAtom (r.skip 1) = (none, t)) (inner : Reading CharacterClass)
    (rounds start : Nat) :
    leadingMembers inner (rounds + 2) ⟨[], start, []⟩ r =
      .character ⟨('-' : Char).toNat, r.currentSpan⟩ ::
        leadingMembers inner rounds ⟨[], start, []⟩ t := by
  have hslash := classAtom_none (seesRange_next hrange).1 hlast
  have hno : ¬ (r.skip 1).seesRange := fun h => by
    rw [seesRange_head? h] at hslash
    cases hslash
  have hhyphen := classAtom_plain (seesRange_head? hrange) (by decide)
  rw [leadingMembers_member (seesRange_member hrange), classMember_single hhyphen hno,
    leadingMembers_member (seesRange_escape hrange hslash), classMember_none hlast]
  rfl

end PhpSyntax.Pattern
