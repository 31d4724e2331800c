import Mathlib.Data.List.Nodup
import Mathlib.Data.List.OfFn
import Mathlib.Logic.Equiv.Defs
import PhpSyntax.Proofs.Pattern.ClassSet.Elements
import PhpSyntax.Proofs.Pattern.Duplicates

namespace PhpSyntax.Pattern

variable {sets : Nat → ClassSet Nat} {n : Nat}

def ClassSet.Meets {ω : Type} (s t : ClassSet ω) : Prop :=
  ∃ c ≤ maxCodePoint, s.contains c ∧ t.contains c

theorem ClassSet.meets_map {ω ω' : Type} (f g : ω → ω') (s t : ClassSet ω) :
    (s.map f).Meets (t.map g) ↔ s.Meets t := by
  simp only [Meets, contains_map]

/-- One of the first `n` sets other than that at `i` meets it. -/
def Overlapped (sets : Nat → ClassSet Nat) (n i : Nat) : Prop :=
  i < n ∧ ∃ j < n, j ≠ i ∧ (sets i).Meets (sets j)

theorem Overlapped.succ {i : Nat} (h : Overlapped sets n i) : Overlapped sets (n + 1) i := by
  obtain ⟨hi, j, hj, hne, hmeets⟩ := h
  exact ⟨Nat.lt_succ_of_lt hi, j, Nat.lt_succ_of_lt hj, hne, hmeets⟩

namespace DuplicateSearch

/-- A search after the first `n` members. Each code point of one of them has one of them as its
owner, the others may have lost it, and what was reported are the members that overlap. -/
structure Exact (sets : Nat → ClassSet Nat) (n : Nat) (search : DuplicateSearch) : Prop where
  valid : search.seen.Valid
  owner : ∀ c ≤ maxCodePoint, ∀ i, search.seen.ownerOf? c = some i → i < n ∧ (sets i).contains c
  owned : ∀ i < n, ∀ c ≤ maxCodePoint, (sets i).contains c → ∃ j, search.seen.ownerOf? c = some j
  nodup : search.duplicates.Nodup
  mem : ∀ i, i ∈ search.duplicates ↔ Overlapped sets n i

theorem exact_start : Exact sets 0 ⟨.empty, []⟩ where
  valid := ClassSet.valid_empty
  owner := by simp [ClassSet.ownerOf?, ClassSet.empty]
  owned := by simp
  nodup := .nil
  mem := by simp [Overlapped]

variable {search search' : DuplicateSearch} {flags : Flags} {e : ClassElement}
  {overlapping : List Nat}

/-- A member that has lost a code point was reported when it did, so that only the owner is to be
reported with the next member. -/
theorem Exact.mem_step (hs : search.Exact sets n)
    (hover : ∀ i, i ∈ overlapping ↔
      ∃ c ≤ maxCodePoint, search.seen.ownerOf? c = some i ∧ (sets n).contains c) (i : Nat) :
    i ∈ search.duplicates ∨ overlapping ≠ [] ∧ (i ∈ overlapping ∨ i = n) ↔
      Overlapped sets (n + 1) i := by
  have howner : ∀ j ∈ overlapping, j < n ∧ (sets j).Meets (sets n) := by
    intro j hj
    obtain ⟨c, hc, hown, hin⟩ := (hover j).mp hj
    obtain ⟨hlt, hcontains⟩ := hs.owner c hc j hown
    exact ⟨hlt, c, hc, hcontains, hin⟩
  constructor
  · rintro (hi | ⟨hne, hi | rfl⟩)
    · exact ((hs.mem i).mp hi).succ
    · obtain ⟨hlt, hmeets⟩ := howner i hi
      exact ⟨Nat.lt_succ_of_lt hlt, n, Nat.lt_succ_self n, Nat.ne_of_gt hlt, hmeets⟩
    · obtain ⟨j, hj⟩ := List.exists_mem_of_ne_nil _ hne
      obtain ⟨hlt, c, hc, hj, hi⟩ := howner j hj
      exact ⟨Nat.lt_succ_self i, j, Nat.lt_succ_of_lt hlt, Nat.ne_of_lt hlt, c, hc, hi, hj⟩
  · rintro ⟨hi, j, hj, hne, c, hc, hini, hinj⟩
    by_cases hin : i = n
    · subst hin
      obtain ⟨k, hk⟩ := hs.owned j (by omega) c hc hinj
      exact .inr ⟨List.ne_nil_of_mem ((hover k).mpr ⟨c, hc, hk, hini⟩), .inr rfl⟩
    · have hi : i < n := by omega
      by_cases hjn : j = n
      · subst hjn
        obtain ⟨k, hk⟩ := hs.owned i hi c hc hini
        have hmem := (hover k).mpr ⟨c, hc, hk, hinj⟩
        by_cases hki : k = i
        · subst hki
          exact .inr ⟨List.ne_nil_of_mem hmem, .inl hmem⟩
        · -- another member took the code point over
          obtain ⟨hkn, hink⟩ := hs.owner c hc k hk
          exact .inl ((hs.mem i).mpr ⟨hi, k, hkn, hki, c, hc, hini, hink⟩)
      · exact .inl ((hs.mem i).mpr ⟨hi, j, by omega, hne, c, hc, hini, hinj⟩)

theorem Exact.step (hs : search.Exact sets n) (hset : ClassSet.ofElement e flags n = .ok (sets n))
    (hvalid : (sets n).Valid) :
    ∃ search', search.step flags (e, n) = .ok search' ∧ search'.Exact sets (n + 1) := by
  obtain ⟨overlapping, hinter, -, hover⟩ := ClassSet.intersections_ok hs.valid hvalid
  obtain ⟨seen, hseen, hvalid', -, howner⟩ := ClassSet.addSet_ok hs.valid hvalid
  obtain ⟨search', hstep⟩ : ∃ search', search.step flags (e, n) = .ok search' := by
    simp [DuplicateSearch.step, hset, hinter, hseen, bind, Except.bind, pure, Except.pure]
  obtain ⟨set, overlapping', h⟩ := steps_of_step hstep
  obtain rfl : sets n = set := Except.ok.inj (hset.symm.trans h.ofElement)
  obtain rfl : overlapping = overlapping' := Except.ok.inj (hinter.symm.trans h.intersections)
  obtain rfl : seen = search'.seen := Except.ok.inj (hseen.symm.trans h.addSet)
  refine ⟨search', hstep, hvalid', fun c hc i hi => ?_, fun i hi c hc hin => ?_, h.nodup hs.nodup,
    fun i => (h.mem i).trans (hs.mem_step hover i)⟩
  · rw [howner c hc] at hi
    obtain hi | ⟨-, hi⟩ := Option.or_eq_some_iff.mp hi
    · obtain rfl : i = n := (ClassSet.ofElement_ownedBy hset).ownerOf hi
      exact ⟨Nat.lt_succ_self i, Option.isSome_of_eq_some hi⟩
    · obtain ⟨hlt, hin⟩ := hs.owner c hc i hi
      exact ⟨Nat.lt_succ_of_lt hlt, hin⟩
  · rw [howner c hc]
    by_cases hin' : i = n
    · subst hin'
      obtain ⟨j, hj⟩ := Option.isSome_iff_exists.mp hin
      exact ⟨j, by rw [hj]; rfl⟩
    · obtain ⟨j, hj⟩ := hs.owned i (by omega) c hc hin
      cases hown : (sets n).ownerOf? c with
      | none => exact ⟨j, hj⟩
      | some k => exact ⟨k, rfl⟩

end DuplicateSearch

/-- The places of the members that share code points with others. -/
theorem duplicatePlaces_exact {u : ClassUnion}
    (hstarts : ∀ e ∈ u.elements, (Part.member e).StartsBounded)
    (hsets : ∀ i e, u.elements[i]? = some e → ClassSet.ofElement e u.flags i = .ok (sets i)) :
    ∃ places, duplicatePlaces u = .ok places ∧ places.Nodup ∧
      ∀ i, i ∈ places ↔ Overlapped sets u.elements.length i := by
  let Q (n : Nat) (result : Except ClassSetFault DuplicateSearch) : Prop :=
    ∃ search, result = .ok search ∧ search.Exact sets n
  have hstep : ∀ n e search, u.elements[n]? = some e → Q n (.ok search) →
      Q (n + 1) (search.step u.flags (e, n)) := by
    rintro n e search he ⟨_, ⟨⟩, hs⟩
    have hvalid := ClassSet.ofElement_valid (hstarts e (List.mem_of_getElem? he)) (hsets n e he)
    exact hs.step (hsets n e he) hvalid
  obtain ⟨search, hsearch, hexact⟩ := DuplicateSearch.foldlM_steps
    (fun _ _ ⟨_, h, _⟩ => nomatch h) hstep ⟨_, rfl, DuplicateSearch.exact_start⟩
  refine ⟨search.duplicates, ?_, hexact.nodup, hexact.mem⟩
  rw [duplicatePlaces, hsearch]
  rfl

def UnionOf.reorder {ε : Type} (u : UnionOf ε) (σ : Equiv.Perm (Fin u.elements.length)) :
    UnionOf ε :=
  { u with elements := List.ofFn fun i => u.elements.get (σ i) }

variable {u : ClassUnion} {S : Fin u.elements.length → ClassSet Nat}

theorem reorder_refl (u : ClassUnion) : u.reorder (Equiv.refl _) = u := by
  simp [UnionOf.reorder]

theorem reorder_getElem (σ : Equiv.Perm (Fin u.elements.length)) {i : Nat} {e : ClassElement}
    (h : (u.reorder σ).elements[i]? = some e) :
    ∃ hi : i < u.elements.length, e = u.elements.get (σ ⟨i, hi⟩) := by
  obtain ⟨hi, rfl⟩ := List.getElem?_eq_some_iff.mp h
  exact ⟨by simpa [UnionOf.reorder] using hi, by simp [UnionOf.reorder]⟩

theorem reorder_places_exact (hbounded : (Part.union u).Bounded)
    (hsets : ∀ i, ClassSet.ofElement (u.elements.get i) u.flags i.val = .ok (S i))
    (σ : Equiv.Perm (Fin u.elements.length)) :
    ∃ places : List (Fin u.elements.length),
      duplicatePlaces (u.reorder σ) = .ok (places.map Fin.val) ∧ places.Nodup ∧
      ∀ i, i ∈ places ↔ ∃ j, j ≠ i ∧ (S (σ i)).Meets (S (σ j)) := by
  -- a member has the same code points at its new place, only their owner is another
  let sets (i : Nat) : ClassSet Nat :=
    if h : i < u.elements.length then (S (σ ⟨i, h⟩)).map fun _ => i else .empty
  have hstarts : ∀ e ∈ (u.reorder σ).elements, (Part.member e).StartsBounded := by
    intro e he
    obtain ⟨i, he⟩ := List.mem_iff_getElem?.mp he
    obtain ⟨hi, rfl⟩ := reorder_getElem σ he
    exact hbounded.startsBounded.members _ (List.get_mem _ _)
  have hsets' : ∀ i e, (u.reorder σ).elements[i]? = some e →
      ClassSet.ofElement e (u.reorder σ).flags i = .ok (sets i) := by
    intro i e he
    obtain ⟨hi, rfl⟩ := reorder_getElem σ he
    have hmap := ClassSet.ofElement_map (fun _ => i) (u.elements.get (σ ⟨i, hi⟩)) u.flags
      (σ ⟨i, hi⟩).val
    rw [hsets] at hmap
    simp only [sets, hi, dif_pos]
    exact hmap
  obtain ⟨places, hplaces, hnodup, hmem⟩ := duplicatePlaces_exact hstarts hsets'
  have hlen : (u.reorder σ).elements.length = u.elements.length := by simp [UnionOf.reorder]
  rw [hlen] at hmem
  obtain ⟨places, rfl⟩ : ∃ indices : List (Fin u.elements.length), places = indices.map Fin.val :=
    ⟨places.pmap Fin.mk fun i hi => ((hmem i).mp hi).1, by simp [List.map_pmap]⟩
  refine ⟨places, hplaces, List.Nodup.of_map _ hnodup, fun i => ?_⟩
  rw [← List.mem_map_of_injective Fin.val_injective, hmem]
  constructor
  · rintro ⟨-, j, hj, hne, hmeets⟩
    refine ⟨⟨j, hj⟩, fun h => hne (congrArg Fin.val h), ?_⟩
    simpa [sets, hj, ClassSet.meets_map] using hmeets
  · rintro ⟨j, hne, hmeets⟩
    refine ⟨i.isLt, j, j.isLt, fun h => hne (Fin.ext h), ?_⟩
    simpa [sets, ClassSet.meets_map] using hmeets

/-- In any order the members are reported that share code points with others. -/
theorem reorder_exact (hbounded : (Part.union u).Bounded)
    (hsets : ∀ i, ClassSet.ofElement (u.elements.get i) u.flags i.val = .ok (S i))
    (σ : Equiv.Perm (Fin u.elements.length)) :
    ∃ members : List (Fin u.elements.length),
      duplicatePlaces (u.reorder σ) = .ok (members.map fun i => (σ.symm i).val) ∧
      duplicates (u.reorder σ) = .ok (members.map u.elements.get) ∧ members.Nodup ∧
      ∀ i, i ∈ members ↔ ∃ j, j ≠ i ∧ (S i).Meets (S j) := by
  obtain ⟨places, hplaces, hnodup, hmem⟩ := reorder_places_exact hbounded hsets σ
  refine ⟨places.map σ, ?_, ?_, hnodup.map σ.injective, fun i => ?_⟩
  · rw [hplaces, List.map_map]
    simp [Function.comp_def]
  · rw [duplicates, hplaces]
    refine congrArg Except.ok ?_
    rw [List.filterMap_map, List.map_map, ← List.filterMap_eq_map]
    refine List.filterMap_congr fun i _ => ?_
    simp [UnionOf.reorder]
  · rw [← σ.apply_symm_apply i, List.mem_map_of_injective σ.injective, hmem]
    constructor
    · rintro ⟨j, hne, hmeets⟩
      exact ⟨σ j, fun h => hne (σ.injective h), hmeets⟩
    · rintro ⟨j, hne, hmeets⟩
      refine ⟨σ.symm j, fun h => hne ?_, by rwa [σ.apply_symm_apply j]⟩
      rw [← h, σ.apply_symm_apply]

/-- The members that share a code point with another are reported, each once, although a later
member takes the code points of earlier ones over. In another order the same ones are reported. -/
theorem duplicates_exact (hbounded : (Part.union u).Bounded)
    (hsets : ∀ i, ClassSet.ofElement (u.elements.get i) u.flags i.val = .ok (S i)) :
    ∃ members : List (Fin u.elements.length),
      duplicatePlaces u = .ok (members.map Fin.val) ∧
      duplicates u = .ok (members.map u.elements.get) ∧ members.Nodup ∧
      (∀ i, i ∈ members ↔ ∃ j, j ≠ i ∧ (S i).Meets (S j)) ∧
      ∀ σ : Equiv.Perm (Fin u.elements.length), ∃ members' : List (Fin u.elements.length),
        duplicatePlaces (u.reorder σ) = .ok (members'.map fun i => (σ.symm i).val) ∧
        duplicates (u.reorder σ) = .ok (members'.map u.elements.get) ∧ members'.Perm members := by
  obtain ⟨members, hplaces, hmembers, hnodup, hmem⟩ := reorder_exact hbounded hsets (.refl _)
  rw [reorder_refl] at hplaces hmembers
  refine ⟨members, hplaces, hmembers, hnodup, hmem, fun σ => ?_⟩
  obtain ⟨members', hplaces', hmembers', hnodup', hmem'⟩ := reorder_exact hbounded hsets σ
  refine ⟨members', hplaces', hmembers', (List.perm_ext_iff_of_nodup hnodup' hnodup).mpr fun i => ?_⟩
  rw [hmem, hmem']

/-- In `[aa-cax]` the range has taken the first letter over when the same letter comes again. -/
theorem duplicates_exact_shadowed :
    let u : ClassUnion := ⟨[.character ⟨0x61, ⟨1, 2⟩⟩,
      .range ⟨⟨0x61, ⟨2, 3⟩⟩, ⟨0x63, ⟨4, 5⟩⟩, ⟨2, 5⟩⟩, .character ⟨0x61, ⟨5, 6⟩⟩,
      .character ⟨0x78, ⟨6, 7⟩⟩], {}, ⟨1, 7⟩⟩
    ∃ members : List (Fin u.elements.length), duplicates u = .ok (members.map u.elements.get) ∧
      members.Nodup ∧ ∀ i, i ∈ members ↔ i.val < 3 := by
  intro u
  let S (i : Fin u.elements.length) : ClassSet Nat :=
    [⟨[(0x61, some 0), (0x62, none)], false⟩, ⟨[(0x61, some 1), (0x64, none)], false⟩,
      ⟨[(0x61, some 2), (0x62, none)], false⟩, ⟨[(0x78, some 3), (0x79, none)], false⟩].get i
  have hbounded : (Part.union u).Bounded := by
    intro c hc
    simp only [u, Part.visit_eq, Part.children, Part.ofElement, if_true, List.map_cons, List.map_nil,
      List.flatMap_cons, List.flatMap_nil, List.append_nil, List.cons_append, List.nil_append,
      List.mem_cons, List.not_mem_nil, reduceCtorEq, Part.character.injEq, or_false, false_or] at hc
    obtain rfl | rfl | rfl | rfl | rfl := hc
    all_goals decide
  have hsets : ∀ i, ClassSet.ofElement (u.elements.get i) u.flags i.val = .ok (S i) := by
    decide +kernel
  obtain ⟨members, hplaces, hmembers, hnodup, -, -⟩ := duplicates_exact hbounded hsets
  refine ⟨members, hmembers, hnodup, fun i => ?_⟩
  have h : duplicatePlaces u = .ok [0, 1, 2] := by decide +kernel
  have hval : members.map Fin.val = [0, 1, 2] := Except.ok.inj (hplaces.symm.trans h)
  rw [← List.mem_map_of_injective Fin.val_injective, hval]
  simp only [List.mem_cons, List.not_mem_nil, or_false]
  omega

end PhpSyntax.Pattern
