import Mathlib.Data.List.Induction
import Mathlib.Data.Nat.Find
import Mathlib.Order.Bounds.Basic
import PhpSyntax.Proofs.Pattern.ClassSet.Runs

namespace PhpSyntax.Pattern.ClassSet

variable {ω : Type} {s t u : ClassSet ω} {w : ω}

inductive Reachable : ClassSet ω → Prop where
  | empty : Reachable empty
  | run {s t : ClassSet ω} (hs : Reachable s) (first last : Nat) (w : ω)
      (h : s.addRun first last w = .ok t) : Reachable t
  | set {s t u : ClassSet ω} (hs : Reachable s) (ht : Reachable t) (h : s.addSet t = .ok u) :
      Reachable u
  | element {s t : ClassSet ω} (hs : Reachable s) (e : ClassElement) (flags : Flags) (w : ω)
      (h : addElement flags w s e = .ok t) : Reachable t

def Bounded (s : ClassSet ω) : Prop :=
  ∀ run ∈ s.runs, run.first ≤ maxCodePoint

instance (s : ClassSet ω) : Decidable s.Bounded :=
  inferInstanceAs (Decidable (∀ run ∈ s.runs, _))

def Results (P : ClassSet ω → Prop) (result : Except ClassSetFault (ClassSet ω)) : Prop :=
  ∀ t, result = .ok t → P t

/-- A property that sets keep when runs get owners. -/
structure Kept (P : ClassSet ω → Prop) : Prop where
  empty : P empty
  run : ∀ s, P s → ∀ first last w, Results P (s.addRun first last w)
  unknown : ∀ s, P s → ∀ unknown, P { s with unknown := unknown }

namespace Results

variable {P : ClassSet ω → Prop} {result : Except ClassSetFault (ClassSet ω)}

theorem ok (h : P t) : Results P (.ok t) := by
  rintro _ ⟨⟩
  exact h

theorem bind {f : ClassSet ω → Except ClassSetFault (ClassSet ω)} (h : Results P result)
    (hf : ∀ t, P t → Results P (f t)) : Results P (result >>= f) := by
  cases result with
  | error fault => nofun
  | ok t => exact hf t (h t rfl)

theorem ite {p : Prop} [Decidable p] {other : Except ClassSetFault (ClassSet ω)}
    (h : Results P result) (h' : Results P other) : Results P (if p then result else other) := by
  split
  · exact h
  · exact h'

theorem foldlM {α : Type} {f : ClassSet ω → α → Except ClassSetFault (ClassSet ω)}
    (hf : ∀ s, P s → ∀ a, Results P (f s a)) (as : List α) (hs : P s) :
    Results P (as.foldlM f s) :=
  fun _ => foldlM_keeps (fun a _ s t hs => hf s hs a t) hs

end Results

namespace Kept

variable {P : ClassSet ω → Prop} (hP : Kept P) (hs : P s)
include hP hs

theorem addRanges (ranges : List (Nat × Nat)) (w : ω) : Results P (s.addRanges ranges w) :=
  .foldlM (fun s hs range => hP.run s hs range.1 range.2 w) ranges hs

theorem addSet (t : ClassSet ω) : Results P (s.addSet t) :=
  (Results.foldlM (fun s hs (run : Run ω) => hP.run s hs run.first run.last run.owner)
    t.runs hs).bind fun sum hsum => .ok (hP.unknown sum hsum _)

theorem addBetween (w : ω) (next : Nat) (runs : List (Run ω)) :
    Results P (addBetween w s next runs) := by
  induction runs generalizing s next with
  | nil => exact .ite (hP.run s hs _ _ w) (.ok hs)
  | cons run rest ih =>
    rw [ClassSet.addBetween]
    split
    · exact (hP.run s hs _ _ w).bind fun t ht => ih ht _
    · exact ih hs _

theorem addComplement (t : ClassSet ω) (w : ω) : Results P (s.addComplement t w) :=
  hP.addBetween hs w 0 t.runs

theorem addComplementOf (ranges : List (Nat × Nat)) (w : ω) :
    Results P (s.addComplementOf ranges w) :=
  (hP.addRanges hP.empty ranges w).bind fun t _ => hP.addComplement hs t w

theorem addCharacter (code : Nat) (flags : Flags) (w : ω) :
    Results P (s.addCharacter code flags w) := by
  refine (hP.run s hs code code w).bind fun t ht => ?_
  dsimp only
  split
  · exact .ok ht
  · exact (hP.run t ht _ _ w).bind fun u hu => hP.run u hu _ _ w

theorem addRange (first last : Nat) (flags : Flags) (w : ω) :
    Results P (s.addRange first last flags w) := by
  unfold ClassSet.addRange
  split
  · exact hP.run s hs first last w
  dsimp only
  split
  · exact hP.run s hs first last w
  · exact hP.addRanges hs _ w

theorem addEscapedClass (letter : Char) (flags : Flags) (w : ω) :
    Results P (s.addEscapedClass letter flags w) := by
  have words : ∀ ranges, Results P (do
      let sum ← s.addRanges ranges w
      return { sum with unknown := sum.unknown || flags.unicodeClass }) := fun ranges =>
    (hP.addRanges hs ranges w).bind fun sum hsum => .ok (hP.unknown sum hsum _)
  have unlisted : Results P (.ok { s with unknown := true }) := .ok (hP.unknown s hs true)
  unfold ClassSet.addEscapedClass
  dsimp only
  split
  · exact words digitRanges
  · exact words wordRanges
  · exact .ite unlisted (hP.addComplementOf hs _ w)
  · exact .ite unlisted (hP.addComplementOf hs _ w)
  · exact hP.addRanges hs _ w
  · exact hP.addComplementOf hs _ w
  · exact hP.addRanges hs _ w
  · exact hP.addComplementOf hs _ w
  · exact hP.addRanges hs _ w
  · exact hP.addComplementOf hs _ w
  · exact unlisted

theorem addNested (inner : ClassSet ω) (negated : Bool) (w : ω) :
    Results P (s.addNested inner negated w) :=
  .ite (hP.addSet hs inner) (.ite (.ok (hP.unknown s hs true)) (hP.addComplement hs inner w))

end Kept

mutual

theorem Kept.addElement {P : ClassSet ω → Prop} (hP : Kept P) (flags : Flags) (w : ω)
    {s : ClassSet ω} (hs : P s) :
    ∀ e : ClassElement, Results P (ClassSet.addElement flags w s e)
  | .character c => by
    rw [ClassSet.addElement]
    exact hP.addCharacter hs c.codePoint flags w
  | .range r => by
    rw [ClassSet.addElement]
    exact .ite nofun (hP.addRange hs _ _ flags w)
  | .escapedClass e => by
    rw [ClassSet.addElement]
    exact hP.addEscapedClass hs e.letter flags w
  | .nested ⟨negated, ⟨elements, flags, _⟩, _⟩ => by
    rw [ClassSet.addElement]
    exact (hP.addElements flags w hP.empty elements).bind fun inner _ =>
      hP.addNested hs inner negated w
  | .posix _ => by
    rw [ClassSet.addElement]
    exact .ok (hP.unknown s hs true)
  | .intersection _ _ => by
    rw [ClassSet.addElement]
    exact .ok (hP.unknown s hs true)

theorem Kept.addElements {P : ClassSet ω → Prop} (hP : Kept P) (flags : Flags) (w : ω)
    {s : ClassSet ω} (hs : P s) :
    ∀ es : List ClassElement, Results P (ClassSet.addElements flags w s es)
  | [] => by
    rw [ClassSet.addElements]
    exact .ok hs
  | e :: es => by
    rw [ClassSet.addElements]
    exact (hP.addElement flags w hs e).bind fun t ht => hP.addElements flags w ht es

end

/-- A property that additions keep holds of all sets that they make. -/
theorem Kept.reachable {P : ClassSet ω → Prop} (hP : Kept P) (h : s.Reachable) : P s := by
  induction h with
  | empty => exact hP.empty
  | run _ first last w h ih => exact hP.run _ ih first last w _ h
  | set _ _ h ih => exact hP.addSet ih _ _ h
  | element _ e flags w h ih => exact hP.addElement flags w ih e _ h

/-- The steps come in increasing order, and code points without owners are those of characters. -/
structure Ordered (s : ClassSet ω) : Prop where
  sorted : s.steps.Pairwise fun a b => a.1 < b.1
  bounded : ∀ step ∈ s.steps, step.2 = none → step.1 ≤ maxCodePoint

/-- Runs of any kind can get owners, also runs beyond the code points of characters. -/
theorem kept_ordered : Kept (Ordered (ω := ω)) where
  empty := ⟨.nil, nofun⟩
  run s hs first last w t h := by
    simp only [addRun, bind, Except.bind] at h
    split at h
    · simp at h
    rename_i covered _
    cases h
    have hkept := hs.sorted.filter fun step => !covered.any (·.1 = step.1)
    have hmem : ∀ step ∈ s.steps.filter (fun step => !covered.any (·.1 = step.1)),
        step.2 = none → step.1 ≤ maxCodePoint :=
      fun step hstep => hs.bounded step (List.mem_of_mem_filter hstep)
    generalize s.steps.filter (fun step => !covered.any (·.1 = step.1)) = kept at hkept hmem
    have hfirst : ∀ closed : List (Nat × Option ω),
        (∀ step ∈ closed, step.2 = none → step.1 ≤ maxCodePoint) →
        ∀ step ∈ insertStep first (some w) closed, step.2 = none → step.1 ≤ maxCodePoint := by
      intro closed hclosed step hstep hnone
      obtain rfl | hstep := mem_insertStep hstep
      · cases hnone
      · exact hclosed step hstep hnone
    split
    · rename_i hlast
      refine ⟨sorted_insertStep (sorted_insertStep hkept _ _) _ _, hfirst _ fun step hstep => ?_⟩
      obtain rfl | hstep := mem_insertStep hstep
      · exact fun _ => hlast
      · exact hmem step hstep
    · exact ⟨sorted_insertStep hkept _ _, hfirst _ hmem⟩
  unknown _ hs _ := ⟨hs.sorted, hs.bounded⟩

theorem Reachable.valid (h : s.Reachable) (hb : s.Bounded) : s.Valid := by
  have hs := kept_ordered.reachable h
  refine ⟨hs.sorted, fun step hstep => ?_⟩
  obtain ⟨k, _ | w⟩ := step
  · exact hs.bounded _ hstep rfl
  · obtain ⟨run, hrun, rfl, -⟩ := exists_run hstep
    exact hb run hrun

/-- An owner that comes before another in the list came before it. -/
theorem pairwise_foldl_insertOwner [DecidableEq ω] (vs : List ω) :
    (vs.foldl insertOwner []).Pairwise fun v w =>
      ∃ front back, vs = front ++ v :: back ∧ w ∉ front ∧ w ≠ v := by
  induction vs using List.reverseRecOn with
  | nil => exact .nil
  | append_singleton vs last ih =>
    have hfront : (vs.foldl insertOwner []).Pairwise fun v w =>
        ∃ front back, vs ++ [last] = front ++ v :: back ∧ w ∉ front ∧ w ≠ v :=
      ih.imp fun ⟨front, back, h, hw⟩ => ⟨front, back ++ [last], by simp [h], hw⟩
    rw [List.foldl_append, List.foldl_cons, List.foldl_nil, insertOwner]
    split
    · exact hfront
    · rename_i hnew
      refine List.pairwise_append.mpr ⟨hfront, by simp, fun v hv w hw => ?_⟩
      obtain rfl := List.mem_singleton.mp hw
      have hnot : w ∉ vs := fun h => hnew (by simpa [mem_foldl_insertOwner] using h)
      obtain hv | hv := mem_foldl_insertOwner.mp hv
      · simp at hv
      obtain ⟨front, back, rfl⟩ := List.append_of_mem hv
      rw [List.mem_append, List.mem_cons, not_or, not_or] at hnot
      exact ⟨front, back ++ [w], by simp, hnot.1, hnot.2.1⟩

open Classical in
/-- The owners are those of the runs that meet the other set. -/
theorem intersections_eq [DecidableEq ω] (hs : s.Valid) (ht : t.Valid) :
    s.intersections t = .ok (((s.runs.filter fun run =>
      ∃ c, run.Covers c ∧ t.contains c).map (·.owner)).foldl insertOwner []) := by
  have hfits := hs.fits
  unfold intersections
  generalize ([] : List ω) = found
  generalize s.runs = runs at hfits
  induction runs generalizing found with
  | nil => rfl
  | cons run runs ih =>
    rw [List.forall_mem_cons] at hfits
    obtain ⟨b, hb, hmeets⟩ := intersects_ok ht hfits.1.le
    rw [List.foldlM_cons, hb]
    have hmeets' : b = true ↔ ∃ c, run.Covers c ∧ t.contains c :=
      hmeets.trans (exists_congr fun c => (and_assoc).symm)
    cases b with
    | true =>
      rw [List.filter_cons_of_pos (by simpa using hmeets')]
      exact ih _ hfits.2
    | false =>
      rw [List.filter_cons_of_neg (by simpa using hmeets')]
      exact ih _ hfits.2

def shared (s t : ClassSet ω) (w : ω) : Set Nat :=
  {c | c ≤ maxCodePoint ∧ s.ownerOf? c = some w ∧ t.contains c}

theorem exists_isLeast_shared (h : (s.shared t w).Nonempty) : ∃ a, IsLeast (s.shared t w) a := by
  classical
  exact ⟨Nat.find h, Nat.find_spec h, fun _ hc => Nat.find_min' h hc⟩

/-- A run that meets the other set, before all runs of another owner that do, makes its owner come
first. -/
theorem intersections_ordered [DecidableEq ω] (hs : s.Valid) (ht : t.Valid) {owners : List ω}
    (h : s.intersections t = .ok owners) :
    owners.Pairwise fun v w => ∀ a b, IsLeast (s.shared t v) a → IsLeast (s.shared t w) b → a < b := by
  classical
  rw [intersections_eq hs ht] at h
  cases h
  refine (pairwise_foldl_insertOwner _).imp fun {v w} ⟨front, back, hsplit, hw, hne⟩ a b ha hb => ?_
  obtain ⟨before, rest, hruns, rfl, hrest⟩ := List.map_eq_append_iff.mp hsplit
  obtain ⟨run, after, rfl, rfl, -⟩ := List.map_eq_cons_iff.mp hrest
  have hmem : ∀ other, other ∈ before ++ run :: after ↔
      other ∈ s.runs ∧ ∃ c, other.Covers c ∧ t.contains c := fun other => by
    rw [← hruns, List.mem_filter, decide_eq_true_iff]
  have hsorted := (runsOf_sorted hs.sorted hs.bounded).filter (fun run =>
    ∃ c, run.Covers c ∧ t.contains c)
  rw [← runs, hruns, List.pairwise_append, List.pairwise_cons] at hsorted
  -- the run has a shared code point
  have ha' : a ≤ run.last := by
    obtain ⟨hrun, c, hcovers, hc⟩ := (hmem run).mp (by simp)
    have hle := Nat.le_trans hcovers.2 (hs.fits run hrun).bounded
    have hown := (hs.ownerOf_eq_some_iff hle).mpr ⟨run, hrun, rfl, hcovers⟩
    exact Nat.le_trans (ha.2 ⟨hle, hown, hc⟩) hcovers.2
  -- and the run of the other owner comes later
  obtain ⟨hle, hown, hb'⟩ := hb.1
  obtain ⟨other, hother, rfl, hcovers⟩ := (hs.ownerOf_eq_some_iff hle).mp hown
  have hafter : other ∈ after := by
    have hin := (hmem other).mpr ⟨hother, b, hcovers, hb'⟩
    obtain hin | rfl | hin := (List.mem_append.trans (or_congr_right List.mem_cons)).mp hin
    · exact absurd (List.mem_map_of_mem hin) hw
    · exact absurd rfl hne
    · exact hin
  have hlt := hsorted.2.1.1 other hafter
  exact Nat.lt_of_le_of_lt ha' (Nat.lt_of_lt_of_le hlt hcovers.1)

/-- Just the owners that share code points are listed, each once, by the smallest code point that
they share. -/
theorem intersections_exact [DecidableEq ω] (hs : s.Reachable) (ht : t.Reachable) (hsb : s.Bounded)
    (htb : t.Bounded) :
    ∃ owners, s.intersections t = .ok owners ∧ owners.Nodup ∧
      (∀ w, w ∈ owners ↔ (s.shared t w).Nonempty) ∧
      owners.Pairwise fun v w =>
        ∃ a b, IsLeast (s.shared t v) a ∧ IsLeast (s.shared t w) b ∧ a < b := by
  have hsv := hs.valid hsb
  have htv := ht.valid htb
  obtain ⟨owners, hok, hnodup, hmem⟩ := intersections_ok hsv htv
  refine ⟨owners, hok, hnodup, hmem, ?_⟩
  refine (intersections_ordered hsv htv hok).imp_of_mem fun {v w} hv hw hlt => ?_
  obtain ⟨a, ha⟩ := exists_isLeast_shared ((hmem v).mp hv)
  obtain ⟨b, hb⟩ := exists_isLeast_shared ((hmem w).mp hw)
  exact ⟨a, b, ha, hb, hlt a b ha hb⟩

/-- The letters of the owner `0` stand in two runs, on both sides of those of the owner `2`. The
digits of `1` were added later, and come first. -/
theorem intersections_exact_letters :
    let s : ClassSet Nat := ⟨[(0x30, some 1), (0x3A, none), (0x61, some 0), (0x66, some 2),
      (0x69, some 0), (0x7B, none)], false⟩
    let t : ClassSet Nat := ⟨[(0x35, some 0), (0x36, none), (0x65, some 0), (0x6B, none)], false⟩
    (s.Reachable ∧ s.Bounded) ∧ (t.Reachable ∧ t.Bounded) ∧
      s.intersections t = .ok [1, 0, 2] ∧ [1, 0, 2].Pairwise fun v w =>
        ∃ a b, IsLeast (s.shared t v) a ∧ IsLeast (s.shared t w) b ∧ a < b := by
  intro s t
  have hs : s.Reachable := by
    have hletters : (ClassSet.mk [(0x61, some 0), (0x7B, none)] false).Reachable :=
      .run .empty 0x61 0x7A 0 rfl
    have hsplit : (ClassSet.mk [(0x61, some 0), (0x66, some 2), (0x69, some 0), (0x7B, none)]
        false).Reachable := .run hletters 0x66 0x68 2 (by decide)
    exact .run hsplit 0x30 0x39 1 (by decide)
  have ht : t.Reachable := by
    have hletters : (ClassSet.mk [(0x65, some 0), (0x6B, none)] false).Reachable :=
      .run .empty 0x65 0x6A 0 rfl
    have hdigit : (ClassSet.mk [(0x35, some 0), (0x36, none)] false).Reachable :=
      .run .empty 0x35 0x35 0 rfl
    exact .set hletters hdigit (by decide)
  have hsb : s.Bounded := by decide
  have htb : t.Bounded := by decide
  obtain ⟨owners, hok, -, -, hordered⟩ := intersections_exact hs ht hsb htb
  have hlist : s.intersections t = .ok [1, 0, 2] := by decide
  obtain rfl : [1, 0, 2] = owners := by simpa [hlist] using hok
  exact ⟨⟨hs, hsb⟩, ⟨ht, htb⟩, hlist, hordered⟩

end PhpSyntax.Pattern.ClassSet
