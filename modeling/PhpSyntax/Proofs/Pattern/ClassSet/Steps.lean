import Mathlib.Data.List.Basic
import PhpSyntax.Pattern.ClassSet.Basic

namespace PhpSyntax.Pattern.ClassSet

variable {ω : Type} {s t : ClassSet ω} {steps : List (Nat × Option ω)} {c : Nat} {w : ω}

/-- The steps come in increasing order and stand for code points of characters. -/
structure Valid (s : ClassSet ω) : Prop where
  sorted : s.steps.Pairwise fun a b => a.1 < b.1
  bounded : ∀ step ∈ s.steps, step.1 ≤ maxCodePoint

theorem valid_empty : (empty : ClassSet ω).Valid :=
  ⟨.nil, nofun⟩

@[simp]
theorem ownerOf_empty (c : Nat) : (empty : ClassSet ω).ownerOf? c = none := rfl

structure LastStep (steps : List (Nat × Option ω)) (c : Nat) (step : Nat × Option ω) : Prop where
  mem : step ∈ steps
  le : step.1 ≤ c
  last : ∀ other ∈ steps, other.1 ≤ c → other.1 ≤ step.1

theorem takeWhile_eq_filter (hs : steps.Pairwise fun a b => a.1 < b.1) (c : Nat) :
    steps.takeWhile (·.1 ≤ c) = steps.filter (·.1 ≤ c) := by
  induction steps with
  | nil => rfl
  | cons step rest ih =>
    rw [List.pairwise_cons] at hs
    by_cases h : step.1 ≤ c
    · rw [List.takeWhile_cons_of_pos (by simpa using h), List.filter_cons_of_pos (by simpa using h),
        ih hs.2]
    · rw [List.takeWhile_cons_of_neg (by simpa using h), List.filter_cons_of_neg (by simpa using h)]
      refine (List.filter_eq_nil_iff.mpr fun other hother => ?_).symm
      have := hs.1 other hother
      simp
      omega

theorem eq_of_key_eq (hs : steps.Pairwise fun a b => a.1 < b.1) {a b : Nat × Option ω}
    (ha : a ∈ steps) (hb : b ∈ steps) (h : a.1 = b.1) : a = b := by
  induction steps with
  | nil => simp at ha
  | cons step rest ih =>
    rw [List.pairwise_cons] at hs
    obtain rfl | ha' := List.mem_cons.mp ha
    · obtain rfl | hb' := List.mem_cons.mp hb
      · rfl
      · have := hs.1 b hb'
        omega
    · obtain rfl | hb' := List.mem_cons.mp hb
      · have := hs.1 a ha'
        omega
      · exact ih hs.2 ha' hb'

theorem le_getLast (hs : steps.Pairwise fun a b => a.1 < b.1) {step : Nat × Option ω}
    (h : steps.getLast? = some step) : ∀ other ∈ steps, other.1 ≤ step.1 := by
  obtain ⟨front, rfl⟩ := List.getLast?_eq_some_iff.mp h
  intro other hother
  obtain hother | hother := List.mem_append.mp hother
  · exact Nat.le_of_lt ((List.pairwise_append.mp hs).2.2 other hother step (.head _))
  · obtain rfl := List.mem_singleton.mp hother
    exact Nat.le_refl _

theorem getLast_takeWhile (hs : steps.Pairwise fun a b => a.1 < b.1) {step : Nat × Option ω} :
    (steps.takeWhile (·.1 ≤ c)).getLast? = some step ↔ LastStep steps c step := by
  rw [takeWhile_eq_filter hs]
  constructor
  · intro h
    have hmem := List.mem_filter.mp (List.mem_of_getLast? h)
    refine ⟨hmem.1, by simpa using hmem.2, fun other hother hle => ?_⟩
    exact le_getLast (hs.filter _) h other (List.mem_filter.mpr ⟨hother, by simpa using hle⟩)
  · intro h
    have hmem : step ∈ steps.filter (·.1 ≤ c) := List.mem_filter.mpr ⟨h.mem, by simpa using h.le⟩
    cases hlast : (steps.filter (·.1 ≤ c)).getLast? with
    | none => simp [List.getLast?_eq_none_iff.mp hlast] at hmem
    | some last =>
      have hin := List.mem_filter.mp (List.mem_of_getLast? hlast)
      have h₁ := le_getLast (hs.filter _) hlast step hmem
      have h₂ := h.last last hin.1 (by simpa using hin.2)
      rw [eq_of_key_eq hs hin.1 h.mem (by omega)]

theorem Valid.ownerOf_eq (hs : s.Valid) {step : Nat × Option ω} (h : LastStep s.steps c step) :
    s.ownerOf? c = step.2 := by
  rw [ownerOf?, (getLast_takeWhile hs.sorted).mpr h]
  rfl

theorem Valid.lastStep (hs : s.Valid) (h : s.ownerOf? c = some w) :
    ∃ k, LastStep s.steps c (k, some w) := by
  obtain ⟨⟨k, o⟩, hlast, ho⟩ := Option.bind_eq_some_iff.mp h
  obtain rfl : o = some w := ho
  exact ⟨k, (getLast_takeWhile hs.sorted).mp hlast⟩

theorem ownerOf_eq_none (h : ∀ step ∈ s.steps, c < step.1) : s.ownerOf? c = none := by
  have hnil : s.steps.takeWhile (·.1 ≤ c) = [] := by
    cases hs : s.steps with
    | nil => rfl
    | cons step rest =>
      rw [hs] at h
      have := h step (.head _)
      rw [List.takeWhile_cons_of_neg (by simpa using this)]
  rw [ownerOf?, hnil]
  rfl

/-- Up to a code point there is a last step, or there are no steps. -/
theorem Valid.lastStep_or (hs : s.Valid) (c : Nat) :
    (∃ step, LastStep s.steps c step) ∨ ∀ step ∈ s.steps, c < step.1 := by
  cases h : (s.steps.takeWhile (·.1 ≤ c)).getLast? with
  | some step => exact .inl ⟨step, (getLast_takeWhile hs.sorted).mp h⟩
  | none =>
    have hnil := List.getLast?_eq_none_iff.mp h
    rw [takeWhile_eq_filter hs.sorted, List.filter_eq_nil_iff] at hnil
    exact .inr fun step hstep => by simpa using hnil step hstep

/-- Where no step lies in between, the owner stays the same. -/
theorem Valid.ownerOf_congr (hs : s.Valid) {a : Nat} (hac : a ≤ c)
    (h : ∀ step ∈ s.steps, step.1 ≤ c → step.1 ≤ a) : s.ownerOf? c = s.ownerOf? a := by
  obtain ⟨step, hstep⟩ | hnone := hs.lastStep_or c
  · have hstep' : LastStep s.steps a step :=
      ⟨hstep.mem, h step hstep.mem hstep.le, fun other hother hle =>
        hstep.last other hother (Nat.le_trans hle hac)⟩
    rw [hs.ownerOf_eq hstep, hs.ownerOf_eq hstep']
  · rw [ownerOf_eq_none hnone, ownerOf_eq_none fun step hstep =>
      Nat.lt_of_le_of_lt hac (hnone step hstep)]

/-- Steps that another set has too, with no others near, give the same owner. -/
theorem Valid.ownerOf_eq_of_lastStep (hs : s.Valid) (ht : t.Valid) {step : Nat × Option ω}
    (h : LastStep s.steps c step) (hmem : step ∈ t.steps)
    (hlast : ∀ other ∈ t.steps, other.1 ≤ c → other.1 ≤ step.1) :
    t.ownerOf? c = s.ownerOf? c := by
  rw [hs.ownerOf_eq h, ht.ownerOf_eq ⟨hmem, h.le, hlast⟩]

theorem mem_insertStep_iff (hs : steps.Pairwise fun a b => a.1 < b.1) {k : Nat} {o : Option ω}
    {step : Nat × Option ω} :
    step ∈ insertStep k o steps ↔ step = (k, o) ∨ step ∈ steps ∧ step.1 ≠ k := by
  induction steps with
  | nil => simp [insertStep]
  | cons head rest ih =>
    rw [List.pairwise_cons] at hs
    have hrest : step ∈ rest → head.1 < step.1 := hs.1 step
    unfold insertStep
    split
    · have hne : step ∈ head :: rest → step.1 ≠ k := by
        rintro (_ | hmem)
        · omega
        · have := hrest ‹_›
          omega
      rw [List.mem_cons]
      exact or_congr_right (and_iff_left_of_imp hne).symm
    split
    · rename_i heq
      have hne : step ∈ rest → step.1 ≠ k := fun h => by have := hrest h; omega
      have hhead : step = head → step.1 = k := fun h => h ▸ heq.symm
      rw [List.mem_cons, List.mem_cons]
      exact or_congr_right ⟨fun h => ⟨.inr h, hne h⟩, fun ⟨h, hk⟩ =>
        h.resolve_left fun heq => hk (hhead heq)⟩
    · have hhead : step = head → step.1 ≠ k := by
        rintro rfl
        omega
      rw [List.mem_cons, List.mem_cons, ih hs.2]
      constructor
      · rintro (h | h | ⟨h, hk⟩)
        · exact .inr ⟨.inl h, hhead h⟩
        · exact .inl h
        · exact .inr ⟨.inr h, hk⟩
      · rintro (h | ⟨h | h, hk⟩)
        · exact .inr (.inl h)
        · exact .inl h
        · exact .inr (.inr ⟨h, hk⟩)

theorem sorted_insertStep (hs : steps.Pairwise fun a b => a.1 < b.1) (k : Nat) (o : Option ω) :
    (insertStep k o steps).Pairwise fun a b => a.1 < b.1 := by
  induction steps with
  | nil => simp [insertStep]
  | cons head rest ih =>
    have hcons := hs
    rw [List.pairwise_cons] at hs
    unfold insertStep
    split
    · rename_i hlt
      refine List.pairwise_cons.mpr ⟨fun other hother => ?_, hcons⟩
      obtain rfl | hother := List.mem_cons.mp hother
      · exact hlt
      · exact Nat.lt_trans hlt (hs.1 other hother)
    split
    · rename_i heq
      exact List.pairwise_cons.mpr ⟨fun other hother => heq ▸ hs.1 other hother, hs.2⟩
    · refine List.pairwise_cons.mpr ⟨fun other hother => ?_, ih hs.2⟩
      obtain rfl | ⟨hother, -⟩ := (mem_insertStep_iff hs.2).mp hother
      · simp only
        omega
      · exact hs.1 other hother

variable {first last : Nat}

theorem stepsIn_ok (s : ClassSet ω) (hfl : first ≤ last) :
    ∃ covered, s.stepsIn first last = .ok covered ∧
      ∀ step, step ∈ covered ↔ step ∈ s.steps ∧ first ≤ step.1 ∧ step.1 ≤ last := by
  unfold stepsIn
  split
  · rename_i hnil
    exact ⟨[], rfl, by simp [List.isEmpty_iff.mp hnil]⟩
  · rw [if_neg (by omega)]
    exact ⟨_, rfl, fun step => by simp [List.mem_filter]⟩

/-- The steps after a run got an owner: one where it starts, one after its end, and the steps of
before that are not in between. -/
def AfterRun (s : ClassSet ω) (first last : Nat) (w : ω) (step : Nat × Option ω) : Prop :=
  step = (first, some w) ∨
    (last < maxCodePoint ∧ step = (last + 1, s.ownerOf? (last + 1))) ∨
    (step ∈ s.steps ∧ (step.1 < first ∨ last + 1 < step.1))

theorem addRun_steps (hs : s.Valid) (hfl : first ≤ last) (w : ω) :
    ∃ t, s.addRun first last w = .ok t ∧ t.unknown = s.unknown ∧
      (t.steps.Pairwise fun a b => a.1 < b.1) ∧
      ∀ step, step ∈ t.steps ↔ s.AfterRun first last w step := by
  obtain ⟨covered, hcovered, hmem⟩ := stepsIn_ok s hfl
  have hkept : ∀ step, step ∈ s.steps.filter (fun step => !covered.any (·.1 = step.1)) ↔
      step ∈ s.steps ∧ (step.1 < first ∨ last < step.1) := by
    intro step
    simp only [List.mem_filter, Bool.not_eq_true', List.any_eq_false, decide_eq_true_eq]
    refine and_congr_right fun hstep => ⟨fun h => ?_, fun h other hother => ?_⟩
    · by_contra hin
      exact h step ((hmem step).mpr ⟨hstep, by omega, by omega⟩) rfl
    · have := (hmem other).mp hother
      omega
  have hsorted := hs.sorted.filter fun step => !covered.any (·.1 = step.1)
  simp only [addRun, hcovered, bind, Except.bind]
  generalize s.steps.filter (fun step => !covered.any (·.1 = step.1)) = kept at hkept hsorted
  split
  · rename_i hlast
    have hclosed := sorted_insertStep hsorted (last + 1) (s.ownerOf? (last + 1))
    refine ⟨_, rfl, rfl, sorted_insertStep hclosed first _, fun step => ?_⟩
    rw [mem_insertStep_iff hclosed, mem_insertStep_iff hsorted, hkept]
    refine or_congr_right ⟨?_, ?_⟩
    · rintro ⟨rfl | ⟨⟨hstep, hout⟩, hne⟩, hfirst⟩
      · exact .inl ⟨hlast, rfl⟩
      · exact .inr ⟨hstep, by omega⟩
    · rintro (⟨-, rfl⟩ | ⟨hstep, hout⟩)
      · exact ⟨.inl rfl, by simp only; omega⟩
      · exact ⟨.inr ⟨⟨hstep, by omega⟩, by omega⟩, by omega⟩
  · rename_i hlast
    refine ⟨_, rfl, rfl, sorted_insertStep hsorted first _, fun step => ?_⟩
    rw [mem_insertStep_iff hsorted, hkept]
    refine or_congr_right ⟨?_, ?_⟩
    · rintro ⟨⟨hstep, hout⟩, hfirst⟩
      have := hs.bounded step hstep
      exact .inr ⟨hstep, by omega⟩
    · rintro (⟨hlast', -⟩ | ⟨hstep, hout⟩)
      · exact (hlast hlast').elim
      · exact ⟨⟨hstep, by omega⟩, by omega⟩

section AfterRun

variable (hs : s.Valid) (ht : t.Valid) (hmem : ∀ step, step ∈ t.steps ↔ s.AfterRun first last w step)
include ht hmem

theorem ownerOf_inside (hin : first ≤ c ∧ c ≤ last) : t.ownerOf? c = some w := by
  refine ht.ownerOf_eq ⟨(hmem (first, some w)).mpr (.inl rfl), hin.1, ?_⟩
  intro other hother hle
  obtain rfl | ⟨-, rfl⟩ | ⟨-, hout⟩ := (hmem other).mp hother
  · exact Nat.le_refl _
  · simp only at hle
    omega
  · simp only
    omega

include hs

theorem ownerOf_before (hfl : first ≤ last) (hc : c < first) : t.ownerOf? c = s.ownerOf? c := by
  -- the new steps come later
  have hold : ∀ other ∈ t.steps, other.1 ≤ c → other ∈ s.steps := by
    intro other hother hle
    obtain rfl | ⟨-, rfl⟩ | ⟨hother, -⟩ := (hmem other).mp hother
    · simp only at hle
      omega
    · simp only at hle
      omega
    · exact hother
  obtain ⟨step, hstep⟩ | hnone := hs.lastStep_or c
  · have hlt := Nat.lt_of_le_of_lt hstep.le hc
    refine hs.ownerOf_eq_of_lastStep ht hstep ((hmem step).mpr (.inr (.inr ⟨hstep.mem, .inl hlt⟩))) ?_
    exact fun other hother hle => hstep.last other (hold other hother hle) hle
  · rw [ownerOf_eq_none hnone, ownerOf_eq_none]
    intro other hother
    by_contra hle
    have := hnone other (hold other hother (Nat.le_of_not_lt hle))
    omega

theorem ownerOf_behind (hfl : first ≤ last) (hlast : last < c) (hc : c ≤ maxCodePoint) :
    t.ownerOf? c = s.ownerOf? c := by
  by_cases hmore : ∃ step ∈ s.steps, last + 1 < step.1 ∧ step.1 ≤ c
  · -- after a step behind the run the steps are the same
    obtain ⟨later, hlater, hlt, hle⟩ := hmore
    obtain ⟨step, hstep⟩ | hnone := hs.lastStep_or c
    · have hge := hstep.last later hlater hle
      refine hs.ownerOf_eq_of_lastStep ht hstep
        ((hmem step).mpr (.inr (.inr ⟨hstep.mem, by omega⟩))) fun other hother hle => ?_
      obtain rfl | ⟨-, rfl⟩ | ⟨hother, -⟩ := (hmem other).mp hother
      · simp only
        omega
      · simp only
        omega
      · exact hstep.last other hother hle
    · have := hnone later hlater
      omega
  · -- otherwise the step after the run still holds
    have hsame : s.ownerOf? c = s.ownerOf? (last + 1) :=
      hs.ownerOf_congr hlast fun step hstep hle => by
        by_contra hlt
        exact hmore ⟨step, hstep, by omega, hle⟩
    rw [hsame]
    have hend := (hmem (last + 1, s.ownerOf? (last + 1))).mpr (.inr (.inl ⟨by omega, rfl⟩))
    refine ht.ownerOf_eq ⟨hend, hlast, fun other hother hle => ?_⟩
    obtain rfl | ⟨-, rfl⟩ | ⟨hother, -⟩ := (hmem other).mp hother
    · simp only
      omega
    · exact Nat.le_refl _
    · by_contra hlt
      exact hmore ⟨other, hother, by simpa using hlt, hle⟩

end AfterRun

/-- Giving an owner to a run changes the owners of its code points and no others. -/
theorem addRun_ok (hs : s.Valid) (hfl : first ≤ last) (hf : first ≤ maxCodePoint) (w : ω) :
    ∃ t, s.addRun first last w = .ok t ∧ t.Valid ∧ t.unknown = s.unknown ∧
      ∀ c ≤ maxCodePoint,
        t.ownerOf? c = if first ≤ c ∧ c ≤ last then some w else s.ownerOf? c := by
  obtain ⟨t, hadd, hunknown, hsorted, hmem⟩ := addRun_steps hs hfl w
  have ht : t.Valid := by
    refine ⟨hsorted, fun step hstep => ?_⟩
    obtain rfl | ⟨hlast, rfl⟩ | ⟨hstep, -⟩ := (hmem step).mp hstep
    · exact hf
    · exact hlast
    · exact hs.bounded step hstep
  refine ⟨t, hadd, ht, hunknown, fun c hc => ?_⟩
  by_cases hin : first ≤ c ∧ c ≤ last
  · rw [if_pos hin, ownerOf_inside ht hmem hin]
  · rw [if_neg hin]
    by_cases hfirst : c < first
    · exact ownerOf_before hs ht hmem hfl hfirst
    · exact ownerOf_behind hs ht hmem hfl (by omega) hc

end PhpSyntax.Pattern.ClassSet
