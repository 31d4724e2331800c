import PhpSyntax.Proofs.Pattern.ClassSet.Owners
import PhpSyntax.Proofs.Pattern.ClassSet.Steps

namespace PhpSyntax.Pattern

variable {ω : Type}

def Run.Covers (run : Run ω) (c : Nat) : Prop :=
  run.first ≤ c ∧ c ≤ run.last

structure Run.Fits (run : Run ω) : Prop where
  le : run.first ≤ run.last
  bounded : run.last ≤ maxCodePoint

namespace ClassSet

variable {s t : ClassSet ω} {steps rest : List (Nat × Option ω)} {c : Nat} {w : ω} {run : Run ω}

/-- The run starts with a step and goes on to the next. -/
structure FromStep (steps : List (Nat × Option ω)) (run : Run ω) : Prop where
  mem : (run.first, some run.owner) ∈ steps
  fits : run.Fits
  covers : ∀ c ≤ maxCodePoint, run.first ≤ c →
    (c ≤ run.last ↔ ∀ other ∈ steps, other.1 ≤ c → other.1 ≤ run.first)

theorem FromStep.cons {step : Nat × Option ω} (hstep : ∀ other ∈ rest, step.1 < other.1)
    (h : FromStep rest run) : FromStep (step :: rest) run := by
  refine ⟨.tail _ h.mem, h.fits, fun c hc hle => ?_⟩
  rw [h.covers c hc hle, List.forall_mem_cons]
  have hlt := hstep _ h.mem
  exact ⟨fun hrest => ⟨fun _ => Nat.le_of_lt hlt, hrest⟩, And.right⟩

theorem fromStep_head {k : Nat} (hs : ((k, some w) :: rest).Pairwise fun a b => a.1 < b.1)
    (hb : ∀ step ∈ (k, some w) :: rest, step.1 ≤ maxCodePoint) :
    FromStep ((k, some w) :: rest) ⟨k, (rest.head?.map (·.1 - 1)).getD maxCodePoint, w⟩ := by
  rw [List.pairwise_cons] at hs
  rw [List.forall_mem_cons] at hb
  cases rest with
  | nil =>
    refine ⟨.head _, ⟨hb.1, Nat.le_refl _⟩, fun c hc hle => ⟨fun _ other hother _ => ?_, fun _ => hc⟩⟩
    obtain rfl := List.mem_singleton.mp hother
    exact Nat.le_refl _
  | cons next rest =>
    have hlt : k < next.1 := hs.1 next (.head _)
    have hle := hb.2 next (.head _)
    refine ⟨.head _, ⟨?_, ?_⟩, fun c hc hkc => ⟨fun hlast other hother hother' => ?_, fun h => ?_⟩⟩
    · simp only [List.head?_cons, Option.map_some, Option.getD_some]
      omega
    · simp only [List.head?_cons, Option.map_some, Option.getD_some]
      omega
    · simp only [List.head?_cons, Option.map_some, Option.getD_some] at hlast
      obtain rfl | hother := List.mem_cons.mp hother
      · exact Nat.le_refl _
      · -- no step comes before the one that follows
        have hnext : next.1 ≤ other.1 := by
          obtain rfl | hother := List.mem_cons.mp hother
          · exact Nat.le_refl _
          · exact Nat.le_of_lt ((List.pairwise_cons.mp hs.2).1 other hother)
        omega
    · simp only [List.head?_cons, Option.map_some, Option.getD_some]
      by_contra hlast
      have : next.1 ≤ k := h next (.tail _ (.head _)) (by omega)
      omega

theorem fromStep_of_mem (hs : steps.Pairwise fun a b => a.1 < b.1)
    (hb : ∀ step ∈ steps, step.1 ≤ maxCodePoint) (h : run ∈ runsOf steps) : FromStep steps run := by
  induction steps with
  | nil => simp [runsOf] at h
  | cons step rest ih =>
    have hs' := List.pairwise_cons.mp hs
    have hb' := (List.forall_mem_cons.mp hb).2
    obtain ⟨k, _ | w⟩ := step
    · exact (ih hs'.2 hb' h).cons hs'.1
    · obtain rfl | h := List.mem_cons.mp h
      · exact fromStep_head hs hb
      · exact (ih hs'.2 hb' h).cons hs'.1

theorem exists_run {k : Nat} (h : (k, some w) ∈ steps) :
    ∃ run ∈ runsOf steps, run.first = k ∧ run.owner = w := by
  induction steps with
  | nil => simp at h
  | cons step rest ih =>
    obtain ⟨k', _ | w'⟩ := step
    · obtain h | h := List.mem_cons.mp h
      · simp at h
      · exact ih h
    · obtain h | h := List.mem_cons.mp h
      · cases h
        exact ⟨_, .head _, rfl, rfl⟩
      · obtain ⟨run, hrun, h⟩ := ih h
        exact ⟨run, .tail _ hrun, h⟩

theorem Valid.fits (hs : s.Valid) : ∀ run ∈ s.runs, run.Fits :=
  fun _ h => (fromStep_of_mem hs.sorted hs.bounded h).fits

/-- The code points of an owner are those of its runs. -/
theorem Valid.ownerOf_eq_some_iff (hs : s.Valid) (hc : c ≤ maxCodePoint) :
    s.ownerOf? c = some w ↔ ∃ run ∈ s.runs, run.owner = w ∧ run.Covers c := by
  constructor
  · intro h
    obtain ⟨k, hlast⟩ := hs.lastStep h
    obtain ⟨run, hrun, rfl, rfl⟩ := exists_run hlast.mem
    have hstep := fromStep_of_mem hs.sorted hs.bounded hrun
    exact ⟨run, hrun, rfl, hlast.le, (hstep.covers c hc hlast.le).mpr hlast.last⟩
  · rintro ⟨run, hrun, rfl, hfirst, hlast⟩
    have hstep := fromStep_of_mem hs.sorted hs.bounded hrun
    exact hs.ownerOf_eq ⟨hstep.mem, hfirst, (hstep.covers c hc hfirst).mp hlast⟩

theorem Valid.contains_iff (hs : s.Valid) (hc : c ≤ maxCodePoint) :
    s.contains c ↔ ∃ run ∈ s.runs, run.Covers c := by
  rw [contains, Option.isSome_iff_exists]
  constructor
  · rintro ⟨w, hw⟩
    obtain ⟨run, hrun, -, hcovers⟩ := (hs.ownerOf_eq_some_iff hc).mp hw
    exact ⟨run, hrun, hcovers⟩
  · rintro ⟨run, hrun, hcovers⟩
    exact ⟨run.owner, (hs.ownerOf_eq_some_iff hc).mpr ⟨run, hrun, rfl, hcovers⟩⟩

theorem runsOf_sorted (hs : steps.Pairwise fun a b => a.1 < b.1)
    (hb : ∀ step ∈ steps, step.1 ≤ maxCodePoint) :
    (runsOf steps).Pairwise fun a b => a.last < b.first := by
  induction steps with
  | nil => exact .nil
  | cons step rest ih =>
    have hs' := List.pairwise_cons.mp hs
    have hrest := ih hs'.2 (List.forall_mem_cons.mp hb).2
    obtain ⟨k, _ | w⟩ := step
    · exact hrest
    · refine List.pairwise_cons.mpr ⟨fun run hrun => ?_, hrest⟩
      have hstep := fromStep_of_mem hs'.2 (List.forall_mem_cons.mp hb).2 hrun
      have hhead := fromStep_head hs hb
      have hlt : k < run.first := hs'.1 _ hstep.mem
      by_contra hle
      have := (hhead.covers run.first (hb _ (.tail _ hstep.mem)) (Nat.le_of_lt hlt)).mp
        (Nat.le_of_not_lt hle) _ (.tail _ hstep.mem) (Nat.le_refl _)
      simp only at this
      omega

/-- A stretch of code points meets a set if one of them is in it. -/
theorem intersects_ok (ht : t.Valid) {first last : Nat} (hfl : first ≤ last) :
    ∃ b, t.intersects first last = .ok b ∧
      (b = true ↔ ∃ c, first ≤ c ∧ c ≤ last ∧ t.contains c) := by
  unfold intersects
  split
  · rename_i hfirst
    exact ⟨true, rfl, fun _ => ⟨first, Nat.le_refl _, hfl, hfirst⟩, fun _ => rfl⟩
  · rename_i hfirst
    obtain ⟨covered, hcovered, hmem⟩ := stepsIn_ok t hfl
    rw [hcovered]
    refine ⟨_, rfl, ?_⟩
    rw [List.any_eq_true]
    constructor
    · rintro ⟨step, hstep, hsome⟩
      obtain ⟨hstep, hle, hge⟩ := (hmem step).mp hstep
      refine ⟨step.1, hle, hge, ?_⟩
      rwa [contains, ht.ownerOf_eq ⟨hstep, Nat.le_refl _, fun _ _ h => h⟩]
    · rintro ⟨c, hle, hge, hc⟩
      obtain ⟨w, hw⟩ := Option.isSome_iff_exists.mp hc
      obtain ⟨k, hlast⟩ := ht.lastStep hw
      -- otherwise the first code point has the same owner
      have hk : first ≤ k := by
        by_contra hlt
        apply hfirst
        have hown : t.ownerOf? first = some w :=
          ht.ownerOf_eq ⟨hlast.mem, by simp only; omega, fun other hother h =>
            hlast.last other hother (Nat.le_trans h hle)⟩
        rw [contains, hown]
        rfl
      exact ⟨(k, some w), (hmem _).mpr ⟨hlast.mem, hk, Nat.le_trans hlast.le hge⟩, rfl⟩

/-- The loop adds the owners of the runs that meet the set. -/
theorem foldlM_intersects [DecidableEq ω] (ht : t.Valid) {runs : List (Run ω)} {found : List ω}
    (hfits : ∀ run ∈ runs, run.Fits) (hnodup : found.Nodup) :
    ∃ owners, runs.foldlM (fun owners run => do
        if ← t.intersects run.first run.last then return insertOwner owners run.owner
        else return owners) found = Except.ok owners ∧ owners.Nodup ∧
      ∀ w, w ∈ owners ↔ w ∈ found ∨ ∃ run ∈ runs, run.owner = w ∧
        ∃ c, run.Covers c ∧ t.contains c := by
  induction runs generalizing found with
  | nil => exact ⟨found, rfl, hnodup, by simp⟩
  | cons run runs ih =>
    rw [List.forall_mem_cons] at hfits
    obtain ⟨b, hb, hmeets⟩ := intersects_ok ht hfits.1.le
    rw [List.foldlM_cons, hb]
    simp only [List.exists_mem_cons_iff]
    cases b with
    | true =>
      obtain ⟨owners, hok, hnodup, hmem⟩ := ih hfits.2 (nodup_insertOwner hnodup)
      obtain ⟨c, hle, hge, hc⟩ := hmeets.mp rfl
      refine ⟨owners, hok, hnodup, fun w => ?_⟩
      rw [hmem, mem_insertOwner, or_assoc]
      refine or_congr_right (or_congr_left ⟨fun h => ?_, fun h => h.1.symm⟩)
      exact ⟨h.symm, c, ⟨hle, hge⟩, hc⟩
    | false =>
      obtain ⟨owners, hok, hnodup, hmem⟩ := ih hfits.2 hnodup
      refine ⟨owners, hok, hnodup, fun w => ?_⟩
      rw [hmem]
      refine or_congr_right ⟨.inr, ?_⟩
      rintro (⟨-, c, hcovers, hc⟩ | h)
      · exact absurd (hmeets.mpr ⟨c, hcovers.1, hcovers.2, hc⟩) nofun
      · exact h

/-- The owners of code points of another set, each named once. -/
theorem intersections_ok [DecidableEq ω] (hs : s.Valid) (ht : t.Valid) :
    ∃ owners, s.intersections t = .ok owners ∧ owners.Nodup ∧
      ∀ w, w ∈ owners ↔ ∃ c ≤ maxCodePoint, s.ownerOf? c = some w ∧ t.contains c := by
  obtain ⟨owners, hok, hnodup, hmem⟩ := foldlM_intersects ht hs.fits .nil
  refine ⟨owners, hok, hnodup, fun w => (hmem w).trans ?_⟩
  constructor
  · rintro (hw | ⟨run, hrun, hw, c, hcovers, hc⟩)
    · simp at hw
    · have hle := Nat.le_trans hcovers.2 (hs.fits run hrun).bounded
      exact ⟨c, hle, (hs.ownerOf_eq_some_iff hle).mpr ⟨run, hrun, hw, hcovers⟩, hc⟩
  · rintro ⟨c, hle, hown, hc⟩
    obtain ⟨run, hrun, hw, hcovers⟩ := (hs.ownerOf_eq_some_iff hle).mp hown
    exact .inr ⟨run, hrun, hw, c, hcovers, hc⟩

/-- After runs got their owners, each code point has the owner of a run that covers it, or its
owner of before if there is none. -/
theorem addRuns_ok (hs : s.Valid) {runs : List (Run ω)} (hruns : ∀ run ∈ runs, run.Fits) :
    ∃ t, runs.foldlM (fun s run => s.addRun run.first run.last run.owner) s = .ok t ∧ t.Valid ∧
      t.unknown = s.unknown ∧ ∀ c ≤ maxCodePoint,
        (∃ run ∈ runs, run.Covers c ∧ t.ownerOf? c = some run.owner) ∨
          (∀ run ∈ runs, ¬ run.Covers c) ∧ t.ownerOf? c = s.ownerOf? c := by
  induction runs generalizing s with
  | nil => exact ⟨s, rfl, hs, rfl, fun c _ => .inr ⟨by simp, rfl⟩⟩
  | cons run runs ih =>
    rw [List.forall_mem_cons] at hruns
    obtain ⟨mid, hmid, hvalid, hunknown, howner⟩ :=
      addRun_ok hs hruns.1.le (Nat.le_trans hruns.1.le hruns.1.bounded) run.owner
    obtain ⟨t, ht, hvalid', hunknown', howner'⟩ := ih hvalid hruns.2
    rw [List.foldlM_cons, hmid]
    refine ⟨t, ht, hvalid', hunknown'.trans hunknown, fun c hc => ?_⟩
    rw [List.forall_mem_cons]
    obtain ⟨later, hlater, h⟩ | ⟨hnone, heq⟩ := howner' c hc
    · exact .inl ⟨later, .tail _ hlater, h⟩
    · rw [howner c hc] at heq
      split at heq
      · rename_i hcovers
        exact .inl ⟨run, .head _, hcovers, heq⟩
      · rename_i hcovers
        exact .inr ⟨⟨hcovers, hnone⟩, heq⟩

/-- In a sum the owners are those of the second set, and of the first where it has none. -/
theorem addSet_ok (hs : s.Valid) (ht : t.Valid) :
    ∃ u, s.addSet t = .ok u ∧ u.Valid ∧ u.unknown = (s.unknown || t.unknown) ∧
      ∀ c ≤ maxCodePoint, u.ownerOf? c = (t.ownerOf? c).or (s.ownerOf? c) := by
  obtain ⟨sum, hsum, hvalid, hunknown, howner⟩ := addRuns_ok hs ht.fits
  rw [addSet, hsum]
  refine ⟨_, rfl, ⟨hvalid.sorted, hvalid.bounded⟩, by rw [hunknown], fun c hc => ?_⟩
  change sum.ownerOf? c = _
  obtain ⟨run, hrun, hcovers, h⟩ | ⟨hnone, h⟩ := howner c hc
  · rw [h, (ht.ownerOf_eq_some_iff hc).mpr ⟨run, hrun, rfl, hcovers⟩]
    rfl
  · have hout : t.ownerOf? c = none := by
      rw [Option.eq_none_iff_forall_ne_some]
      intro w hw
      obtain ⟨run, hrun, -, hcovers⟩ := (ht.ownerOf_eq_some_iff hc).mp hw
      exact hnone run hrun hcovers
    rw [h, hout]
    rfl

/-- Up to the next run, all code points get the owner. -/
theorem addBetween_cons (hs : s.Valid) (w : ω) {next : Nat} (hfits : run.Fits)
    (hnext : next ≤ run.first) (runs : List (Run ω)) :
    ∃ t, addBetween w s next (run :: runs) = addBetween w t (run.last + 1) runs ∧ t.Valid ∧
      t.unknown = s.unknown ∧ ∀ c ≤ maxCodePoint,
        t.ownerOf? c = if next ≤ c ∧ c < run.first then some w else s.ownerOf? c := by
  rw [addBetween]
  by_cases hlt : next < run.first
  · have hle : next ≤ maxCodePoint := Nat.le_trans hnext (Nat.le_trans hfits.le hfits.bounded)
    obtain ⟨t, ht, hvalid, hunknown, howner⟩ := addRun_ok hs (Nat.le_sub_one_of_lt hlt) hle w
    rw [if_pos hlt, ht]
    refine ⟨t, rfl, hvalid, hunknown, fun c hc => ?_⟩
    rw [howner c hc]
    exact if_congr (by omega) rfl rfl
  · rw [if_neg hlt]
    exact ⟨s, rfl, hs, rfl, fun c hc => by rw [if_neg (by omega)]⟩

/-- Between runs in increasing order, and after them, all code points get the owner. -/
theorem addBetween_ok (hs : s.Valid) (w : ω) {runs : List (Run ω)} {next : Nat}
    (hruns : ∀ run ∈ runs, run.Fits) (hsorted : runs.Pairwise fun a b => a.last < b.first)
    (hnext : ∀ run ∈ runs, next ≤ run.first) :
    ∃ t, addBetween w s next runs = .ok t ∧ t.Valid ∧ t.unknown = s.unknown ∧
      ∀ c ≤ maxCodePoint, (next ≤ c ∧ (∀ run ∈ runs, ¬ run.Covers c) → t.ownerOf? c = some w) ∧
        (c < next ∨ (∃ run ∈ runs, run.Covers c) → t.ownerOf? c = s.ownerOf? c) := by
  induction runs generalizing s next with
  | nil =>
    unfold addBetween
    by_cases hle : next ≤ maxCodePoint
    · obtain ⟨t, ht, hvalid, hunknown, howner⟩ := addRun_ok hs hle hle w
      rw [if_pos hle]
      refine ⟨t, ht, hvalid, hunknown, fun c hc => ?_⟩
      rw [howner c hc]
      constructor
      · rintro ⟨hge, -⟩
        rw [if_pos ⟨hge, hc⟩]
      · rintro (hlt | ⟨run, hrun, -⟩)
        · rw [if_neg (by omega)]
        · simp at hrun
    · rw [if_neg hle]
      exact ⟨s, rfl, hs, rfl, fun c hc => ⟨fun h => by omega, fun _ => rfl⟩⟩
  | cons run runs ih =>
    rw [List.pairwise_cons] at hsorted
    have hfits := hruns run (.head _)
    have hfirst := hnext run (.head _)
    obtain ⟨mid, hmid, hvalid, hunknown, howner⟩ := addBetween_cons hs w hfits hfirst runs
    obtain ⟨t, ht, hvalid', hunknown', howner'⟩ := ih hvalid
      (fun r hr => hruns r (.tail _ hr)) hsorted.2 hsorted.1
    rw [hmid]
    refine ⟨t, ht, hvalid', hunknown'.trans hunknown, fun c hc => ?_⟩
    obtain ⟨hin, hout⟩ := howner' c hc
    rw [howner c hc] at hout
    rw [List.forall_mem_cons, List.exists_mem_cons_iff]
    have hle := hfits.le
    constructor
    · rintro ⟨hge, hnot, hnone⟩
      by_cases hlt : c < run.first
      · rw [hout (.inl (by omega)), if_pos ⟨hge, hlt⟩]
      · exact hin ⟨by unfold Run.Covers at hnot; omega, hnone⟩
    · rintro (hlt | hcovers | ⟨later, hlater, hcovers⟩)
      · rw [hout (.inl (by omega)), if_neg (by omega)]
      · unfold Run.Covers at hcovers
        rw [hout (.inl (by omega)), if_neg (by omega)]
      · have := hsorted.1 later hlater
        rw [hout (.inr ⟨later, hlater, hcovers⟩), if_neg]
        unfold Run.Covers at hcovers
        omega

/-- All code points that are not in the second set get the owner. -/
theorem addComplement_ok (hs : s.Valid) (ht : t.Valid) (w : ω) :
    ∃ u, s.addComplement t w = .ok u ∧ u.Valid ∧ u.unknown = s.unknown ∧
      ∀ c ≤ maxCodePoint, u.ownerOf? c = if t.contains c then s.ownerOf? c else some w := by
  obtain ⟨u, hu, hvalid, hunknown, howner⟩ := addBetween_ok hs w ht.fits
    (runsOf_sorted ht.sorted ht.bounded) fun _ _ => Nat.zero_le _
  refine ⟨u, hu, hvalid, hunknown, fun c hc => ?_⟩
  split
  · rename_i hin
    exact (howner c hc).2 (.inr ((ht.contains_iff hc).mp hin))
  · rename_i hout
    refine (howner c hc).1 ⟨Nat.zero_le _, fun run hrun hcovers => ?_⟩
    exact hout ((ht.contains_iff hc).mpr ⟨run, hrun, hcovers⟩)

end ClassSet

end PhpSyntax.Pattern
