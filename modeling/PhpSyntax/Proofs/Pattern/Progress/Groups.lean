import Mathlib.Logic.Function.Iterate
import PhpSyntax.Proofs.Pattern.Groups
import PhpSyntax.Proofs.Pattern.Progress.Classes

namespace PhpSyntax.Pattern

open Reading Reader

variable {r : Reader} {n : Nat} {α : Type}

theorem withFlags_agrees {x y : Reading α} (change : Flags → Flags)
    (h : Alike x y { r with flags := change r.flags }) :
    Alike (withFlags change x) (withFlags change y) r := by
  have hset : Advances r { r with flags := change r.flags } :=
    .of_same rfl rfl rfl (List.prefix_refl _)
  have hrestore : Advances (x { r with flags := change r.flags }).2 (withFlags change x r).2 :=
    .of_same rfl rfl rfl (List.prefix_refl _)
  refine ⟨?_, hset.trans (h.advances.trans hrestore), trivial⟩
  have hrun : ∀ z : Reading α, withFlags change z r =
      ((z { r with flags := change r.flags }).1,
        { (z { r with flags := change r.flags }).2 with flags := r.flags }) := fun _ => rfl
  rw [hrun, hrun, h.same]

structure NestedReaders.AgreesBelow (n : Nat) (d d' : NestedReaders) : Prop where
  disjunction : ∀ r, r.rest.length < n → Alike d.disjunction d'.disjunction r
  group : ∀ r, r.rest ≠ [] → r.rest.length < n → Takes d.group d'.group r
  brackets : BracketsAgree n d.brackets d'.brackets

section Group

variable {d d' : NestedReaders} (hd : d.AgreesBelow n d') (start : Nat)
include hd

theorem groupBody_agrees (kind : GroupKind) (change : Flags → Flags) (hlt : r.rest.length < n) :
    Alike (groupBody d start kind change) (groupBody d' start kind change) r :=
  .bind (withFlags_agrees change (hd.disjunction _ hlt)) fun _ _ _ _ =>
    .moves (.bind (.expect _) fun _ => .bind (.spanFrom start) fun _ => .pure _)

theorem someGroupBody_agrees (kind : GroupKind) (change : Flags → Flags)
    (hlt : r.rest.length < n) :
    Alike (do return some (← groupBody d start kind change))
      (do return some (← groupBody d' start kind change)) r :=
  .bind (groupBody_agrees hd start kind change hlt) fun _ _ _ _ => .moves (.pure _)

theorem namedGroup_agrees (close : Char) (hlt : r.rest.length < n) :
    Alike (namedGroup d start close) (namedGroup d' start close) r := by
  refine .after (groupName_moves close) fun name r₁ h₁ => ?_
  split
  · refine .after nextIndex_moves fun index r₂ h₂ => someGroupBody_agrees hd start _ _ ?_
    exact Nat.lt_of_le_of_lt (h₁.trans h₂).length_le hlt
  · exact .moves (.pure _)

theorem announcedGroup_agrees (hlt : r.rest.length < n) :
    Alike (announcedGroup d start) (announcedGroup d' start) r := by
  refine .skip (.after .next? fun c r₁ h₁ => ?_)
  split
  · refine namedGroup_agrees hd start _ ?_
    exact Nat.lt_of_le_of_lt ((Advances.skip r 1).trans h₁).length_le hlt
  · refine .after (groupName_moves _) fun reference _ _ => ?_
    split
    · exact .moves (.bind (.spanFrom start) fun _ => .pure _)
    · exact .moves (.pure _)
  · refine .after (groupName_moves _) fun reference _ _ => ?_
    split
    · exact .moves (.bind (.spanFrom start) fun _ => .pure _)
    · exact .moves (.pure _)
  · exact .moves (.bind (.reportFrom _ start) fun _ => .pure _)

theorem flagGroup_agrees (hlt : r.rest.length < n) :
    Alike (flagGroup d start) (flagGroup d' start) r := by
  refine .after flagChange_moves fun change r₁ h₁ => .after (.eat _) fun closed r₂ h₂ => ?_
  split
  · have hset : Moves (modify fun r : Reader => { r with flags := change.apply r.flags }) :=
      fun _ => .of_same rfl rfl rfl (List.prefix_refl _)
    exact .moves (hset.bind fun _ => .bind (.spanFrom start) fun _ => .pure _)
  · refine .get ?_
    split
    · exact .moves (.bind (.expected _) fun _ => .pure _)
    · refine .skip (someGroupBody_agrees hd start _ _ ?_)
      exact Nat.lt_of_le_of_lt ((h₁.trans h₂).trans (.skip r₂ 1)).length_le hlt

theorem condition_agrees (hlt : r.rest.length < n) : Alike (condition d) (condition d') r := by
  refine .get ?_
  split
  · rename_i hpeek
    refine .bind (hd.group r (rest_ne_nil_of_peek hpeek) hlt) fun a r₁ _ _ => ?_
    split
    · exact .moves (.pure _)
    · exact .moves (.bind (.reportFrom _ _) fun _ => .pure _)
  · exact .moves (.bind (.skip 1) fun _ => .bind (.takeRun _) fun _ => .bind (.expect _) fun _ =>
      .pure _)

theorem conditional_agrees (hlt : r.rest.length < n) :
    Alike (conditional d start) (conditional d' start) r := by
  refine .bind (condition_agrees hd hlt) fun test r₁ h₁ _ => ?_
  have hlt₁ := Nat.lt_of_le_of_lt h₁.length_le hlt
  refine .bind (withFlags_agrees id (hd.disjunction _ hlt₁)) fun body r₂ _ _ => ?_
  generalize branches body = b
  obtain ⟨yes, no, surplus⟩ := b
  cases surplus with
  | some span =>
    exact .moves (.bind (.report _ _) fun _ => .bind (.expect _) fun _ =>
      .bind (.spanFrom start) fun _ => .pure _)
  | none => exact .moves (.bind (.expect _) fun _ => .bind (.spanFrom start) fun _ => .pure _)

theorem specialGroup_agrees (hlt : r.rest.length < n) :
    Alike (specialGroup d start) (specialGroup d' start) r := by
  have hskip : ∀ k, (r.skip k).rest.length < n := fun k =>
    Nat.lt_of_le_of_lt (Advances.skip r k).length_le hlt
  refine .get ?_
  split
  · exact .skip (someGroupBody_agrees hd start _ _ (hskip 1))
  · exact .skip (someGroupBody_agrees hd start _ _ (hskip 1))
  · exact .skip (someGroupBody_agrees hd start _ _ (hskip 1))
  · exact .skip (someGroupBody_agrees hd start _ _ (hskip 1))
  · exact .skip (someGroupBody_agrees hd start _ _ (hskip 2))
  · exact .skip (someGroupBody_agrees hd start _ _ (hskip 2))
  · exact .skip (namedGroup_agrees hd start _ (hskip 1))
  · exact .skip (namedGroup_agrees hd start _ (hskip 1))
  · exact announcedGroup_agrees hd start hlt
  · exact .moves (.bind comment_moves fun _ => .pure _)
  · exact .bind (conditional_agrees hd start hlt) fun _ _ _ _ => .moves (.pure _)
  · split
    · exact .moves (.bind (groupCall_moves start) fun _ => .pure _)
    · exact flagGroup_agrees hd start hlt
  · exact flagGroup_agrees hd start hlt

theorem groupWith_takes (hne : r.rest ≠ []) (hlt : r.rest.length < n + 1) :
    Takes (groupWith d) (groupWith d') r := by
  have hskip := length_skip_lt hne Nat.one_pos
  refine .get (Takes.skip hne Nat.one_pos (.after (.eat _) fun special r₁ h₁ => ?_))
  have hlt₁ : r₁.rest.length < n := Nat.lt_of_le_of_lt h₁.length_le (by omega)
  split
  · exact specialGroup_agrees hd _ hlt₁
  · refine .after nextIndex_moves fun index r₂ h₂ => someGroupBody_agrees hd _ _ _ ?_
    exact Nat.lt_of_le_of_lt h₂.length_le hlt₁

end Group

theorem bounds_takes (h : r.bounds?.isSome) (hne : r.rest ≠ []) : Takes bounds bounds r := by
  refine .get ?_
  split
  · rename_i hnone
    rw [hnone] at h
    cases h
  · rename_i low high k hsome
    have hk : 0 < k := by
      simp only [Reader.bounds?, bind, Option.bind_eq_some_iff] at hsome
      obtain ⟨_, -, _, -, hsome⟩ := hsome
      cases hsome
      exact Nat.succ_pos _
    refine Takes.skip hne hk (.moves ?_)
    exact .ite (.bind (.reportFrom _ _) fun _ => .pure _) (.pure _)

theorem escape_takes (hne : r.rest ≠ []) : Takes escape escape r := by
  refine .get (Takes.skip hne Nat.one_pos (.get ?_))
  split
  · exact .moves (.bind (.expected _) fun _ => .pure _)
  · refine .moves (.ite (.bind (escapedClass_moves _ _) fun _ => .pure _) ?_)
    split
    · exact .bind (.skip 1) fun _ => .bind (.spanFrom _) fun _ => .pure _
    · refine .ite (.bind (.takeRun _) fun _ => .bind (.spanFrom _) fun _ => .pure _) ?_
      refine .ite (groupReference_moves _ _) (.ite (.bind (.skip 1) fun _ => .pure _) ?_)
      exact .bind (characterEscape_moves _) fun _ => .pure _

theorem quotedItems_takes (hne : r.rest ≠ []) : Takes quotedItems quotedItems r := by
  refine Takes.bind (quotation_takes hne) fun cs r₁ _ _ => ?_
  split
  · exact .moves (.bind (quantified_moves _) fun _ => .pure _)
  · exact .moves (.pure _)

section Sequence

variable {d d' : NestedReaders} (hd : d.AgreesBelow n d')
include hd

theorem atom_takes (hne : r.rest ≠ []) (hlt : r.rest.length < n + 1) :
    Takes (atom d) (atom d') r := by
  obtain ⟨c, cs, hr⟩ := List.exists_cons_of_ne_nil hne
  refine .get ?_
  dsimp only
  split
  · rename_i hhead
    simp [head?, peek?, hr] at hhead
  split
  · exact Takes.skip hne Nat.one_pos (.moves (.bind (.report _ _) fun _ => .pure _))
  split
  · exact Takes.bind (bounds_takes ‹_› hne) fun _ _ _ _ =>
      .moves (.bind (.reportFrom _ _) fun _ => .pure _)
  split
  · exact groupWith_takes hd hne hlt
  split
  · exact Takes.bind (bracketsWith_agrees hd.brackets r hne hlt) fun _ _ _ _ => .moves (.pure _)
  split
  · exact Takes.skip hne Nat.one_pos (.moves (.bind (.spanFrom _) fun _ => .pure _))
  split
  · exact Takes.skip hne Nat.one_pos (.moves (.bind (.spanFrom _) fun _ => .pure _))
  split
  · exact Takes.skip hne Nat.one_pos (.moves (.bind (.spanFrom _) fun _ => .pure _))
  split
  · exact escape_takes hne
  · exact Takes.bind (plainCharacter_takes _ hne) fun _ _ _ _ => .moves (.pure _)

theorem quantifiedAtom_takes (hne : r.rest ≠ []) (hlt : r.rest.length < n + 1) :
    Takes (quantifiedAtom d) (quantifiedAtom d') r := by
  refine Takes.bind (atom_takes hd hne hlt) fun a r₁ _ _ => ?_
  split
  · exact .moves (.bind (quantified_moves _) fun _ => .pure _)
  · exact .moves (.pure _)

def Reader.endsSequence (r : Reader) : Prop :=
  r.head?.all fun c => c = '|' || c = ')'

/-- Parts are read to the end of their sequence. Each round takes a character. -/
theorem sequenceItems_agrees {rounds rounds' : Nat} (hlt : r.rest.length < n + 1)
    (h : r.rest.length < rounds) (h' : r.rest.length < rounds') :
    Agrees (sequenceItems d rounds) (sequenceItems d' rounds') r endsSequence := by
  induction rounds generalizing rounds' r with
  | zero => exact (Nat.not_lt_zero _ h).elim
  | succ rounds ih =>
    obtain ⟨rounds', rfl⟩ := Nat.exists_eq_succ_of_ne_zero (Nat.ne_zero_of_lt h')
    refine .after .skipExtended fun _ r₁ h₁ => .get ?_
    have hle := h₁.length_le
    split
    · exact .pure _ ‹_›
    · rename_i hhead
      have hne : r₁.rest ≠ [] := by
        intro hnil
        simp [head?, peek?, hnil] at hhead
      have hmore : ∀ (items : List Regex) (r₂ : Reader), Advances r₁ r₂ →
          r₂.rest.length < r₁.rest.length →
            Agrees (do return items ++ (← sequenceItems d rounds))
              (do return items ++ (← sequenceItems d' rounds')) r₂ endsSequence :=
        fun items r₂ h₂ hlt₂ => .bind (ih (by omega) (by omega) (by omega)) fun _ r₃ _ hends =>
          .pure _ hends
      split
      · exact .bind (quotedItems_takes hne) hmore
      · exact .bind (quantifiedAtom_takes hd hne (by omega)) hmore

theorem sequence_agrees (hlt : r.rest.length < n + 1) :
    Agrees (sequence d) (sequence d') r endsSequence := by
  refine .get (.bind (sequenceItems_agrees hd hlt (Nat.lt_succ_self _) (Nat.lt_succ_self _)) ?_)
  intro items r₁ _ hends
  split
  · exact .pure _ hends
  · exact .spanFrom (.pure _ hends)

def Reader.endsGroup (r : Reader) : Prop :=
  r.head?.all (· = ')')

/-- Alternatives are read to the end of the group around them. -/
theorem alternatives_agrees {rounds rounds' : Nat} (hends : r.endsSequence)
    (hlt : r.rest.length < n + 1) (h : r.rest.length < rounds) (h' : r.rest.length < rounds') :
    Agrees (alternatives d rounds) (alternatives d' rounds') r endsGroup := by
  induction rounds generalizing rounds' r with
  | zero => exact (Nat.not_lt_zero _ h).elim
  | succ rounds ih =>
    obtain ⟨rounds', rfl⟩ := Nat.exists_eq_succ_of_ne_zero (Nat.ne_zero_of_lt h')
    refine .eat _ (fun hsees => ?_) fun hsees => ?_
    · have hne : r.rest ≠ [] := rest_ne_nil_of_head (of_decide_eq_true hsees)
      have hskip := length_skip_lt hne Nat.one_pos
      rw [if_pos rfl, if_pos rfl]
      refine .bind (sequence_agrees hd (by omega)) fun next r₁ h₁ hends₁ => ?_
      have hle := h₁.length_le
      exact .bind (ih hends₁ (by omega) (by omega) (by omega)) fun _ _ _ => .pure _
    · refine .pure [] ?_
      unfold endsSequence at hends
      unfold endsGroup
      cases hhead : r.head? with
      | none => rfl
      | some c => simp_all [sees]

theorem disjunctionWith_agrees (hlt : r.rest.length < n + 1) :
    Agrees (disjunctionWith d) (disjunctionWith d') r endsGroup := by
  refine .get (.bind (sequence_agrees hd hlt) fun first r₁ h₁ hends => ?_)
  have hle := h₁.length_le
  refine .bind (alternatives_agrees hd hends (by omega) (by omega) (by omega)) ?_
  intro more r₂ _ hends₂
  split
  · exact .pure _ hends₂
  · exact .spanFrom (.pure _ hends₂)

end Sequence

namespace NestedReaders

def deepen (d : NestedReaders) : NestedReaders where
  disjunction := disjunctionWith d
  group := groupWith d
  brackets := bracketsWith d.brackets

theorem AgreesBelow.deepen {d d' : NestedReaders} (hd : d.AgreesBelow n d') :
    d.deepen.AgreesBelow (n + 1) d'.deepen where
  disjunction _ hlt := (disjunctionWith_agrees hd hlt).alike
  group _ hne hlt := groupWith_takes hd hne hlt
  brackets := bracketsWith_agrees hd.brackets

/-- What stands below some levels is never called where fewer characters are left. -/
theorem iterate_agrees (bottom bottom' : NestedReaders) {depth depth' : Nat} (h : n ≤ depth)
    (h' : n ≤ depth') : (deepen^[depth] bottom).AgreesBelow n (deepen^[depth'] bottom') := by
  -- each level lies behind a character, so all three numbers go down together
  induction n generalizing depth depth' with
  | zero =>
    exact ⟨fun r hlt => (Nat.not_lt_zero _ hlt).elim, fun r _ hlt => (Nat.not_lt_zero _ hlt).elim,
      fun r _ hlt => (Nat.not_lt_zero _ hlt).elim⟩
  | succ n ih =>
    obtain ⟨depth, rfl⟩ := Nat.exists_eq_succ_of_ne_zero (Nat.ne_zero_of_lt h)
    obtain ⟨depth', rfl⟩ := Nat.exists_eq_succ_of_ne_zero (Nat.ne_zero_of_lt h')
    rw [Function.iterate_succ_apply', Function.iterate_succ_apply']
    exact (ih (Nat.le_of_succ_le_succ h) (Nat.le_of_succ_le_succ h')).deepen

end NestedReaders

theorem nestedReaders_eq_iterate (depth : Nat) :
    nestedReaders depth = NestedReaders.deepen^[depth] (nestedReaders 0) := by
  induction depth with
  | zero => rfl
  | succ depth ih =>
    rw [Function.iterate_succ_apply', ← ih]
    rfl

/-- Only as many levels count as there are characters. -/
theorem nestedReaders_agree {depth depth' : Nat} (h : n ≤ depth) (h' : n ≤ depth') :
    (nestedReaders depth).AgreesBelow n (nestedReaders depth') := by
  rw [nestedReaders_eq_iterate depth, nestedReaders_eq_iterate depth']
  exact NestedReaders.iterate_agrees _ _ h h'

end PhpSyntax.Pattern
