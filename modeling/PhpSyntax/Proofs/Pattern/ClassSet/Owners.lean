import Mathlib.Data.List.Basic
import PhpSyntax.Pattern.ClassSet.Element

namespace PhpSyntax.Pattern.ClassSet

section Map

variable {ω ω' : Type} (f : ω → ω')

def mapStep (step : Nat × Option ω) : Nat × Option ω' :=
  (step.1, step.2.map f)

def map (s : ClassSet ω) : ClassSet ω' :=
  ⟨s.steps.map (mapStep f), s.unknown⟩

def mapRun (run : Run ω) : Run ω' :=
  ⟨run.first, run.last, f run.owner⟩

theorem ownerOf_map (s : ClassSet ω) (c : Nat) : (s.map f).ownerOf? c = (s.ownerOf? c).map f := by
  simp only [ownerOf?, map, List.takeWhile_map, List.getLast?_map]
  change (Option.map _ (s.steps.takeWhile fun step => step.1 ≤ c).getLast?).bind _ = _
  cases (s.steps.takeWhile fun step => step.1 ≤ c).getLast? <;> rfl

theorem contains_map (s : ClassSet ω) (c : Nat) : (s.map f).contains c = s.contains c := by
  simp [contains, ownerOf_map]

theorem runs_map (s : ClassSet ω) : (s.map f).runs = s.runs.map (mapRun f) := by
  simp only [runs, map]
  generalize s.steps = steps
  induction steps with
  | nil => rfl
  | cons step rest ih =>
    obtain ⟨k, _ | w⟩ := step
    · exact ih
    · have hhead : (rest.map (mapStep f)).head?.map (·.1 - 1) = rest.head?.map (·.1 - 1) := by
        cases rest <;> rfl
      simp only [List.map_cons, mapStep, Option.map_some, runsOf, mapRun]
      exact congrArg₂ List.cons (congrArg (fun last => Run.mk k (last.getD maxCodePoint) (f w)) hhead) ih

theorem insertStep_map (c : Nat) (o : Option ω) (steps : List (Nat × Option ω)) :
    insertStep c (o.map f) (steps.map (mapStep f)) = (insertStep c o steps).map (mapStep f) := by
  induction steps with
  | nil => rfl
  | cons step rest ih =>
    simp only [insertStep, List.map_cons, ih]
    change (if c < step.1 then _ else if c = step.1 then _ else _) = _
    split
    · rfl
    split
    · rfl
    · rfl

theorem addRun_map (s : ClassSet ω) (first last : Nat) (w : ω) :
    (s.map f).addRun first last (f w) = (s.addRun first last w).map (map f) := by
  have hcovered : (s.map f).stepsIn first last =
      (s.stepsIn first last).map (List.map (mapStep f)) := by
    simp only [stepsIn, map, List.isEmpty_map, List.filter_map]
    split
    · rfl
    split
    · rfl
    · rfl
  simp only [addRun, hcovered, bind, Except.bind]
  cases s.stepsIn first last with
  | error fault => rfl
  | ok covered =>
    have hkept : (s.map f).steps.filter (fun step => !(covered.map (mapStep f)).any (·.1 = step.1)) =
        (s.steps.filter fun step => !covered.any (·.1 = step.1)).map (mapStep f) := by
      simp only [map, List.filter_map, List.any_map]
      rfl
    simp only [Except.map, ownerOf_map, hkept]
    change Except.ok (ClassSet.mk (insertStep first (Option.map f (some w)) _) _) = _
    split
    · rw [insertStep_map, insertStep_map]
      rfl
    · rw [insertStep_map]
      rfl

/-- A loop over sets commutes with replacing owners if each of its steps does. -/
theorem foldlM_map {α α' ε : Type} {g : ClassSet ω → α → Except ε (ClassSet ω)}
    {g' : ClassSet ω' → α' → Except ε (ClassSet ω')} {h : α → α'}
    (hg : ∀ s a, g' (s.map f) (h a) = (g s a).map (map f)) (as : List α) (s : ClassSet ω) :
    (as.map h).foldlM g' (s.map f) = (as.foldlM g s).map (map f) := by
  induction as generalizing s with
  | nil => rfl
  | cons a as ih =>
    rw [List.map_cons, List.foldlM_cons, List.foldlM_cons, hg]
    cases g s a with
    | error fault => rfl
    | ok t => exact ih t

theorem addRanges_map (s : ClassSet ω) (ranges : List (Nat × Nat)) (w : ω) :
    (s.map f).addRanges ranges (f w) = (s.addRanges ranges w).map (map f) := by
  have h : (ranges.map id).foldlM (fun s range => s.addRun range.1 range.2 (f w)) (s.map f) =
      (s.addRanges ranges w).map (map f) :=
    foldlM_map f (fun s range => addRun_map f s range.1 range.2 w) ranges s
  rwa [List.map_id] at h

theorem addSet_map (s t : ClassSet ω) :
    (s.map f).addSet (t.map f) = (s.addSet t).map (map f) := by
  have h : (t.runs.map (mapRun f)).foldlM
      (fun (s : ClassSet ω') run => s.addRun run.first run.last run.owner) (s.map f) =
      (t.runs.foldlM (fun (s : ClassSet ω) run => s.addRun run.first run.last run.owner) s).map
        (map f) :=
    foldlM_map f (fun s run => addRun_map f s run.first run.last run.owner) t.runs s
  unfold addSet
  rw [runs_map, h]
  cases t.runs.foldlM (fun s run => s.addRun run.first run.last run.owner) s <;> rfl

theorem addBetween_map (w : ω) (s : ClassSet ω) (next : Nat) (runs : List (Run ω)) :
    addBetween (f w) (s.map f) next (runs.map (mapRun f)) =
      (addBetween w s next runs).map (map f) := by
  induction runs generalizing s next with
  | nil =>
    simp only [List.map_nil, addBetween]
    split
    · exact addRun_map f s next maxCodePoint w
    · rfl
  | cons run rest ih =>
    simp only [List.map_cons, addBetween, mapRun]
    split
    · rw [addRun_map]
      cases s.addRun next (run.first - 1) w with
      | error fault => rfl
      | ok t => exact ih t _
    · exact ih s _

theorem addComplement_map (s t : ClassSet ω) (w : ω) :
    (s.map f).addComplement (t.map f) (f w) = (s.addComplement t w).map (map f) := by
  rw [addComplement, runs_map, addBetween_map]
  rfl

theorem addComplementOf_map (s : ClassSet ω) (ranges : List (Nat × Nat)) (w : ω) :
    (s.map f).addComplementOf ranges (f w) = (s.addComplementOf ranges w).map (map f) := by
  have h : empty.addRanges ranges (f w) = (empty.addRanges ranges w).map (map f) :=
    addRanges_map f empty ranges w
  unfold addComplementOf
  rw [h]
  cases empty.addRanges ranges w with
  | error fault => rfl
  | ok t => exact addComplement_map f s t w

theorem addCharacter_map (s : ClassSet ω) (code : Nat) (flags : Flags) (w : ω) :
    (s.map f).addCharacter code flags (f w) = (s.addCharacter code flags w).map (map f) := by
  unfold addCharacter
  rw [addRun_map]
  cases s.addRun code code w with
  | error fault => rfl
  | ok t =>
    simp only [Except.map, bind, Except.bind]
    split
    · rfl
    · rw [addRun_map]
      cases t.addRun _ _ w with
      | error fault => rfl
      | ok u => exact addRun_map f u _ _ w

theorem addRange_map (s : ClassSet ω) (first last : Nat) (flags : Flags) (w : ω) :
    (s.map f).addRange first last flags (f w) = (s.addRange first last flags w).map (map f) := by
  unfold addRange
  split
  · exact addRun_map f s first last w
  · dsimp only
    split
    · exact addRun_map f s first last w
    · exact addRanges_map f s _ w

theorem addEscapedClass_map (s : ClassSet ω) (letter : Char) (flags : Flags) (w : ω) :
    (s.map f).addEscapedClass letter flags (f w) =
      (s.addEscapedClass letter flags w).map (map f) := by
  have hwords : ∀ ranges, (do
      let sum ← (s.map f).addRanges ranges (f w)
      return { sum with unknown := sum.unknown || flags.unicodeClass }) =
      Except.map (map f) (do
        let sum ← s.addRanges ranges w
        return { sum with unknown := sum.unknown || flags.unicodeClass }) := by
    intro ranges
    rw [addRanges_map]
    cases s.addRanges ranges w <;> rfl
  unfold addEscapedClass
  dsimp only
  split
  · exact hwords digitRanges
  · exact hwords wordRanges
  · split
    · rfl
    · exact addComplementOf_map f s _ w
  · split
    · rfl
    · exact addComplementOf_map f s _ w
  · exact addRanges_map f s _ w
  · exact addComplementOf_map f s _ w
  · exact addRanges_map f s _ w
  · exact addComplementOf_map f s _ w
  · exact addRanges_map f s _ w
  · exact addComplementOf_map f s _ w
  · rfl

theorem addNested_map (s inner : ClassSet ω) (negated : Bool) (w : ω) :
    (s.map f).addNested (inner.map f) negated (f w) =
      (s.addNested inner negated w).map (map f) := by
  unfold addNested
  split
  · exact addSet_map f s inner
  · change (if inner.unknown then _ else _) = _
    split
    · rfl
    · exact addComplement_map f s inner w

mutual

theorem addElement_map (flags : Flags) (w : ω) (s : ClassSet ω) :
    ∀ e : ClassElement, addElement flags (f w) (s.map f) e = (addElement flags w s e).map (map f)
  | .character c => by
    rw [addElement, addElement]
    exact addCharacter_map f s c.codePoint flags w
  | .range r => by
    rw [addElement, addElement]
    split
    · rfl
    · exact addRange_map f s _ _ flags w
  | .escapedClass e => by
    rw [addElement, addElement]
    exact addEscapedClass_map f s e.letter flags w
  | .posix _ => by rw [addElement, addElement]; rfl
  | .nested ⟨negated, ⟨elements, flags, _⟩, _⟩ => by
    have h : addElements flags (f w) empty elements = (addElements flags w empty elements).map (map f) :=
      addElements_map flags w empty elements
    rw [addElement, addElement, h]
    cases addElements flags w empty elements with
    | error fault => rfl
    | ok inner => exact addNested_map f s inner negated w
  | .intersection _ _ => by rw [addElement, addElement]; rfl

theorem addElements_map (flags : Flags) (w : ω) (s : ClassSet ω) :
    ∀ es : List ClassElement,
      addElements flags (f w) (s.map f) es = (addElements flags w s es).map (map f)
  | [] => by rw [addElements, addElements]; rfl
  | e :: es => by
    rw [addElements, addElements, addElement_map flags w s e]
    cases addElement flags w s e with
    | error fault => rfl
    | ok t => exact addElements_map flags w t es

end

theorem ofElement_map (e : ClassElement) (flags : Flags) (w : ω) :
    ofElement e flags (f w) = (ofElement e flags w).map (map f) :=
  addElement_map f flags w empty e

end Map

variable {ω : Type} {P : ω → Prop} {s t u : ClassSet ω} {w : ω}

def OwnedBy (P : ω → Prop) (s : ClassSet ω) : Prop :=
  ∀ step ∈ s.steps, ∀ w ∈ step.2, P w

theorem ownedBy_empty : (empty : ClassSet ω).OwnedBy P :=
  nofun

theorem OwnedBy.imp {Q : ω → Prop} (h : s.OwnedBy P) (hpq : ∀ w, P w → Q w) : s.OwnedBy Q :=
  fun step hstep w hw => hpq w (h step hstep w hw)

theorem OwnedBy.ownerOf (h : s.OwnedBy P) {c : Nat} (hw : s.ownerOf? c = some w) : P w := by
  obtain ⟨step, hstep, hw⟩ := Option.bind_eq_some_iff.mp hw
  exact h step ((List.takeWhile_sublist _).subset (List.mem_of_getLast? hstep)) w hw

theorem OwnedBy.runs (h : s.OwnedBy P) : ∀ run ∈ s.runs, P run.owner := by
  unfold OwnedBy at h
  unfold ClassSet.runs
  generalize s.steps = steps at h
  induction steps with
  | nil => nofun
  | cons step rest ih =>
    rw [List.forall_mem_cons] at h
    obtain ⟨k, _ | w⟩ := step
    · exact ih h.2
    · exact List.forall_mem_cons.mpr ⟨h.1 w rfl, ih h.2⟩

theorem mem_insertStep {c : Nat} {o : Option ω} {steps : List (Nat × Option ω)}
    {step : Nat × Option ω} (h : step ∈ insertStep c o steps) : step = (c, o) ∨ step ∈ steps := by
  induction steps with
  | nil => simpa [insertStep] using h
  | cons head rest ih =>
    unfold insertStep at h
    split at h
    · simpa using h
    split at h
    · exact (List.mem_cons.mp h).imp id (.tail _)
    · obtain rfl | h := List.mem_cons.mp h
      · exact .inr (.head _)
      · exact (ih h).imp id (.tail _)

theorem OwnedBy.addRun {first last : Nat} (hs : s.OwnedBy P) (hw : P w)
    (h : s.addRun first last w = .ok t) : t.OwnedBy P := by
  simp only [ClassSet.addRun, bind, Except.bind] at h
  split at h
  · simp at h
  cases h
  intro step hstep v hv
  have hkept : ∀ {kept : List (Nat × Option ω)}, kept ⊆ s.steps → step ∈ kept → P v :=
    fun hsub hmem => hs step (hsub hmem) v hv
  obtain rfl | hstep := mem_insertStep hstep
  · cases hv
    exact hw
  split at hstep
  · obtain rfl | hstep := mem_insertStep hstep
    · exact hs.ownerOf hv
    · exact hkept (List.filter_subset_self _) hstep
  · exact hkept (List.filter_subset_self _) hstep

/-- A loop keeps what each of its steps keeps. -/
theorem foldlM_keeps {α β ε : Type} {Q : β → Prop} {f : β → α → Except ε β} {as : List α}
    (hf : ∀ a ∈ as, ∀ b b', Q b → f b a = .ok b' → Q b') {b b' : β} (hb : Q b)
    (h : as.foldlM f b = .ok b') : Q b' := by
  induction as generalizing b with
  | nil =>
    cases h
    exact hb
  | cons a as ih =>
    rw [List.forall_mem_cons] at hf
    rw [List.foldlM_cons] at h
    cases hstep : f b a with
    | error e => simp [hstep, bind, Except.bind] at h
    | ok c =>
      rw [hstep] at h
      exact ih hf.2 (hf.1 b c hb hstep) h

theorem OwnedBy.addSet (hs : s.OwnedBy P) (ht : t.OwnedBy P) (h : s.addSet t = .ok u) :
    u.OwnedBy P := by
  simp only [ClassSet.addSet, bind, Except.bind] at h
  split at h
  · simp at h
  · rename_i sum hsum
    cases h
    have hstep : ∀ run ∈ t.runs, ∀ a b : ClassSet ω, a.OwnedBy P →
        a.addRun run.first run.last run.owner = .ok b → b.OwnedBy P :=
      fun run hrun a b ha hab => ha.addRun (ht.runs run hrun) hab
    have hsum : sum.OwnedBy P := foldlM_keeps hstep hs hsum
    exact hsum

/-- The code points of a member do not depend on its owner, who owns all of them. -/
theorem ofElement_unit {e : ClassElement} {flags : Flags} (h : ofElement e flags w = .ok s) :
    ∃ t, ofElement e flags () = .ok t ∧ s = t.map fun _ => w := by
  rw [ofElement_map (fun _ => w) e flags ()] at h
  cases ht : ofElement e flags () with
  | error fault => simp [ht, Except.map] at h
  | ok t =>
    rw [ht] at h
    cases h
    exact ⟨t, rfl, rfl⟩

theorem ofElement_ownedBy {e : ClassElement} {flags : Flags} (h : ofElement e flags w = .ok s) :
    s.OwnedBy (· = w) := by
  obtain ⟨t, -, rfl⟩ := ofElement_unit h
  intro step hstep v hv
  obtain ⟨⟨k, o⟩, -, rfl⟩ := List.mem_map.mp hstep
  obtain ⟨-, -, rfl⟩ := Option.map_eq_some_iff.mp hv
  rfl

section Insert

variable [DecidableEq ω] {owners vs : List ω} {v : ω}

theorem mem_insertOwner : w ∈ insertOwner owners v ↔ w ∈ owners ∨ w = v := by
  unfold insertOwner
  split
  · rename_i h
    refine ⟨.inl, ?_⟩
    rintro (hw | rfl)
    · exact hw
    · simpa using h
  · simp

theorem nodup_insertOwner (h : owners.Nodup) : (insertOwner owners v).Nodup := by
  unfold insertOwner
  split
  · exact h
  · rename_i hv
    refine List.nodup_append.mpr ⟨h, by simp, ?_⟩
    rintro a ha b hb rfl
    obtain rfl := List.mem_singleton.mp hb
    exact hv (by simpa using ha)

theorem mem_foldl_insertOwner : w ∈ vs.foldl insertOwner owners ↔ w ∈ owners ∨ w ∈ vs := by
  induction vs generalizing owners with
  | nil => simp
  | cons v vs ih => rw [List.foldl_cons, ih, mem_insertOwner, List.mem_cons, or_assoc]

theorem nodup_foldl_insertOwner (h : owners.Nodup) : (vs.foldl insertOwner owners).Nodup := by
  induction vs generalizing owners with
  | nil => exact h
  | cons v vs ih => exact ih (nodup_insertOwner h)

theorem OwnedBy.intersections (hs : s.OwnedBy P) (h : s.intersections t = .ok owners) :
    ∀ w ∈ owners, P w := by
  have hstep : ∀ run ∈ s.runs, ∀ a b : List ω, (∀ w ∈ a, P w) →
      (do if ← t.intersects run.first run.last then return insertOwner a run.owner else return a) =
        Except.ok b → ∀ w ∈ b, P w := by
    intro run hrun a b ha hab w hw
    simp only [bind, Except.bind] at hab
    split at hab
    · simp at hab
    split at hab
    · cases hab
      obtain hw | rfl := mem_insertOwner.mp hw
      · exact ha w hw
      · exact hs.runs run hrun
    · cases hab
      exact ha w hw
  exact foldlM_keeps hstep (fun w hw => by simp at hw) h

end Insert

end PhpSyntax.Pattern.ClassSet
