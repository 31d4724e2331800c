import PhpSyntax.Proofs.Pattern.Bracket.Classes
import PhpSyntax.Proofs.Pattern.Moved.Decoded
import PhpSyntax.Proofs.Pattern.Progress.Groups

namespace PhpSyntax.Pattern

def Regex.firstClass? : Regex → Option CharacterClass
  | .characterClass c => some c
  | .repetition element _ _ => element.firstClass?
  | .sequence (t :: _) _ => t.firstClass?
  | .disjunction (t :: _) _ => t.firstClass?
  | _ => none

theorem Regex.firstClass?_move (g : Nat → Nat) (t : Regex) :
    (t.move g).firstClass? = t.firstClass?.map (moveClass g) := by
  fun_induction firstClass? t with
  | case1 c => simp [firstClass?]
  | case2 element _ _ ih => simpa [firstClass?] using ih
  | case3 t ts _ ih => simpa [firstClass?] using ih
  | case4 t ts _ ih => simpa [firstClass?] using ih
  | case5 t hclass hrepetition hsequence hdisjunction =>
    cases t with
    | sequence items => cases items <;> simp_all [firstClass?]
    | disjunction alternatives => cases alternatives <;> simp_all [firstClass?]
    | _ => simp_all [firstClass?]

open Reading Reader

variable {f : ℕ →o ℕ} {s s' : Span} {r : Reader}

theorem skipExtended_eq {c : Char} (hhead : r.head? = some c) (hc : Text.isWhiteSpace c = false)
    (hhash : c ≠ '#') : skipExtended r = ((), r) := by
  obtain ⟨d, cs, hrest, rfl⟩ := exists_rest_of_head hhead
  have hlength : extendedLength false r.rest = 0 := by simp [extendedLength, hrest, hc, hhash]
  change (if r.flags.extended then _ else _ : Reading Unit) r = _
  rw [hlength]
  split <;> rfl

theorem atom_eq (h : r.head? = some '[') (d : NestedReaders) :
    atom d r = (do return some (.characterClass (← bracketsWith d.brackets)) :
      Reading (Option Regex)) r := by
  have hbounds : r.bounds? = none := by simp [Reader.bounds?, sees, h]
  rw [atom, bind_eq (x := get) rfl]
  simp [h, hbounds]

theorem sequenceItems_eq (h : r.head? = some '[') (d : NestedReaders) (rounds : Nat) :
    sequenceItems d (rounds + 1) r =
      (do return (← quantifiedAtom d) ++ (← sequenceItems d rounds) : Reading (List Regex)) r := by
  have hsees : r.sees '\\' = false := by simp [sees, h]
  rw [sequenceItems, bind_eq (skipExtended_eq h (by decide) (by decide)), bind_eq (x := get) rfl]
  simp [h, hsees]

section Sequence

variable {n : Nat} {negated : Bool} {d : NestedReaders} (h : r.OpensBracket f s s' negated)
include h

theorem Reader.OpensBracket.opening_escaped :
    (r.escapeAt f s s' (negated.toNat + 1)).head? = some '[' :=
  (escapeAt_head? _ h.rest_ne_nil).trans h.opening

theorem Reader.OpensBracket.length_escaped :
    (r.escapeAt f s s' (negated.toNat + 1)).rest.length = r.rest.length + 1 := by
  refine escapeAt_length ?_
  have hpos := List.length_pos_iff.mpr h.bracket.rest_ne_nil
  simp only [Reader.skip, List.length_drop] at hpos
  omega

theorem Reader.OpensBracket.length_lt (hlt : r.rest.length < n + 1) :
    (r.skip (negated.toNat + 2)).rest.length < n := by
  have := length_skip_lt h.rest_ne_nil (n := negated.toNat + 2) (Nat.succ_pos _)
  omega

variable (hcarried : d.Carried f) (hagree : d.AgreesBelow n d) (hlt : r.rest.length < n + 1)
  (hrange : ¬ (r.skip (negated.toNat + 2)).seesRange)
include hcarried hagree hlt hrange

theorem atom_meets :
    Meets f (Option.map (Regex.move f)) r (r.escapeAt f s s' (negated.toNat + 1)) (atom d)
      (atom d) := by
  have hclass := bracketsWith_meets h hcarried.brackets hagree.brackets
    (h.length_lt hlt) hrange
  rw [Meets, atom_eq h.opening, atom_eq h.opening_escaped]
  exact hclass.bind fun c _ _ => .pure (by simp)

theorem quantifiedAtom_meets :
    Meets f (List.map (Regex.move f)) r (r.escapeAt f s s' (negated.toNat + 1))
      (quantifiedAtom d) (quantifiedAtom d) := by
  refine (atom_meets h hcarried hagree hlt hrange).bind fun part _ _ => ?_
  cases part with
  | some part => exact .bind (quantified_carries part) fun _ _ => .pure rfl
  | none => exact .pure rfl

theorem sequenceItems_meets :
    Meets f (List.map (Regex.move f)) r (r.escapeAt f s s' (negated.toNat + 1))
      (sequenceItems d (r.rest.length + 1)) (sequenceItems d (r.rest.length + 2)) := by
  rw [Meets, sequenceItems_eq h.opening, sequenceItems_eq h.opening_escaped]
  refine (quantifiedAtom_meets h hcarried hagree hlt hrange).bind fun items r' hread => ?_
  have htakes := (quantifiedAtom_takes hagree h.rest_ne_nil hlt).ensures
  rw [hread] at htakes
  -- the escaped pattern is one character longer, which gives its loops one more round
  have hrest := (sequenceItems_agrees hagree (Nat.lt_trans htakes hlt) htakes
    (Nat.lt_succ_of_lt htakes)).same
  exact .bind (.congr hrest (sequenceItems_carries hcarried _)) fun _ _ => .pure (by simp)

theorem sequence_meets :
    Meets f (Regex.move f) r (r.escapeAt f s s' (negated.toNat + 1)) (sequence d)
      (sequence d) := by
  refine .get ?_
  rw [h.length_escaped, escapeAt_offset _ h.rest_ne_nil]
  refine (sequenceItems_meets h hcarried hagree hlt hrange).bind fun items _ _ => ?_
  match items with
  | [item] => exact .pure rfl
  | [] | _ :: _ :: _ => exact .bind (.spanFrom _) fun _ _ => .pure (by simp)

theorem disjunctionWith_meets :
    Meets f (Regex.move f) r (r.escapeAt f s s' (negated.toNat + 1)) (disjunctionWith d)
      (disjunctionWith d) := by
  refine .get ?_
  rw [h.length_escaped, escapeAt_offset _ h.rest_ne_nil]
  refine (sequence_meets h hcarried hagree hlt hrange).bind fun first r' hread => ?_
  have hsequence := sequence_agrees hagree hlt
  have hends := hsequence.ensures
  have hle := hsequence.advances.length_le
  rw [hread] at hends hle
  have hlt' := Nat.lt_succ_of_le hle
  have hmore := (alternatives_agrees hagree hends (Nat.lt_of_le_of_lt hle hlt) hlt'
    (Nat.lt_succ_of_lt hlt')).same
  refine .bind (.congr hmore (alternatives_carries hcarried _)) fun more _ => ?_
  cases more with
  | nil => exact .pure rfl
  | cons => exact .bind (.spanFrom _) fun _ _ => .pure (by simp)

end Sequence

section FirstClass

variable (hopening : r.head? = some '[') (d : NestedReaders)

theorem quantified_firstClass (part : Regex) :
    Gives r (quantified part) fun t => t.firstClass? = part.firstClass? := by
  refine .after fun _ _ => .after fun q _ => ?_
  cases q with
  | some q => exact .after fun _ _ => .pure (by rw [Regex.firstClass?])
  | none => exact .pure rfl

include hopening

theorem quantifiedAtom_firstClass :
    Gives r (quantifiedAtom d) fun items =>
      ∃ t, items = [t] ∧ t.firstClass? = some (bracketsWith d.brackets r).1 := by
  have hatom : Gives r (atom d) (· = some (.characterClass (bracketsWith d.brackets r).1)) :=
    .congr (atom_eq hopening d) rfl
  refine hatom.bind fun part r' hpart => ?_
  subst hpart
  refine (quantified_firstClass _).bind fun t _ ht => .pure ⟨t, rfl, ?_⟩
  rw [ht, Regex.firstClass?]

theorem sequenceItems_firstClass (rounds : Nat) :
    Gives r (sequenceItems d (rounds + 1)) fun items =>
      ∃ t ts, items = t :: ts ∧ t.firstClass? = some (bracketsWith d.brackets r).1 := by
  refine .congr (sequenceItems_eq hopening d rounds) ?_
  refine (quantifiedAtom_firstClass hopening d).bind fun items r' h => .after fun more _ => ?_
  obtain ⟨t, rfl, ht⟩ := h
  exact .pure ⟨t, more, rfl, ht⟩

theorem sequence_firstClass :
    Gives r (sequence d) fun t => t.firstClass? = some (bracketsWith d.brackets r).1 := by
  refine .get ((sequenceItems_firstClass hopening d _).bind fun items _ h => ?_)
  obtain ⟨t, ts, rfl, ht⟩ := h
  cases ts with
  | nil => exact .pure ht
  | cons => exact .after fun _ _ => .pure (by rwa [Regex.firstClass?])

theorem disjunctionWith_firstClass :
    Gives r (disjunctionWith d) fun t => t.firstClass? = some (bracketsWith d.brackets r).1 := by
  refine .get ((sequence_firstClass hopening d).bind fun first _ h => .after fun more _ => ?_)
  cases more with
  | nil => exact .pure h
  | cons => exact .after fun _ _ => .pure (by rwa [Regex.firstClass?])

end FirstClass

theorem pattern_tree (cs : List SourceChar) (r : Reader) :
    (pattern cs r).1 = (disjunctionWith (nestedReaders cs.length) r).1 := by
  unfold pattern
  rfl

section Pattern

variable {negated : Bool} (h : r.OpensBracket f s s' negated) {cs cs' : List SourceChar}
  (hlength : r.rest.length = cs.length) (hlength' : cs'.length = cs.length + 1)
include h hlength hlength'

theorem pattern_meets (hrange : ¬ (r.skip (negated.toNat + 2)).seesRange) :
    Meets f (Regex.move f) r (r.escapeAt f s s' (negated.toNat + 1)) (pattern cs)
      (pattern cs') := by
  have hlt := Nat.lt_succ_of_le hlength.le
  -- both patterns are read with the nesting that the longer one has
  have hread := (disjunctionWith_agrees
    (nestedReaders_agree le_rfl (Nat.le_succ cs.length)) hlt).same
  have hmeets := disjunctionWith_meets h (nestedReaders_carried f (cs.length + 1))
    (nestedReaders_agree (Nat.le_succ cs.length) (Nat.le_succ cs.length)) hlt hrange
  rw [Meets, ← hread] at hmeets
  unfold pattern
  rw [hlength']
  exact Meets.bind hmeets fun tree _ _ => .bind finish_carries fun _ _ => .pure rfl

theorem pattern_differ (hrange : (r.skip (negated.toNat + 2)).seesRange) (g g' : Nat → Nat) :
    (pattern cs' (r.escapeAt f s s' (negated.toNat + 1))).1.move g ≠
      (pattern cs r).1.move g' := by
  have hlt := Nat.lt_succ_of_le hlength.le
  have hread := (disjunctionWith_agrees
    (nestedReaders_agree le_rfl (Nat.le_succ cs.length)) hlt).same
  intro heq
  have hclass := congrArg Regex.firstClass? heq
  rw [Regex.firstClass?_move, Regex.firstClass?_move, pattern_tree, pattern_tree, hlength', hread,
    disjunctionWith_firstClass h.opening_escaped, disjunctionWith_firstClass h.opening] at hclass
  exact bracketsWith_differ h (nestedReaders_carried f (cs.length + 1)).brackets
    (nestedReaders_agree (Nat.le_succ cs.length) (Nat.le_succ cs.length)).brackets
    (h.length_lt hlt) hrange g g' (Option.some.inj hclass)

end Pattern

end PhpSyntax.Pattern
