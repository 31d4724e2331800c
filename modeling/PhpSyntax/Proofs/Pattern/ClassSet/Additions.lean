import PhpSyntax.Proofs.Pattern.ClassSet.Elements

/-!
Sets that are made by any additions, one after the other. Such a set is a map: each code point has
the owner that it got from the last addition that covers it, and the runs of the set say the same.
-/

namespace PhpSyntax.Pattern

/-- Something that can be added to a set. The other sets were made by additions too. -/
inductive Addition (ω : Type) where
  | run (first last : Nat) (fits : first ≤ last ∧ last ≤ maxCodePoint) (owner : ω)
  | set (others : List (Addition ω))
  | complement (others : List (Addition ω)) (owner : ω)
  | element (e : ClassElement) (bounded : (Part.member e).StartsBounded) (flags : Flags) (owner : ω)

variable {ω : Type}

open ClassSet

mutual

/-- The set after an addition. A member with an inverted range is refused, and the set stays as it
is. -/
def Addition.apply (s : ClassSet ω) : Addition ω → Except ClassSetFault (ClassSet ω)
  | .run first last _ w => s.addRun first last w
  | .set others => do s.addSet (← ClassSet.build empty others)
  | .complement others w => do s.addComplement (← ClassSet.build empty others) w
  | .element e _ flags w =>
    match addElement flags w s e with
    | .error (.invertedRange ..) => .ok s
    | result => result

def ClassSet.build (s : ClassSet ω) : List (Addition ω) → Except ClassSetFault (ClassSet ω)
  | [] => .ok s
  | a :: as => do ClassSet.build (← a.apply s) as

end

mutual

def Addition.gives (c : Nat) : Addition ω → Option ω
  | .run first last _ w => if first ≤ c ∧ c ≤ last then some w else none
  | .set others => lastOwner c others
  | .complement others w => if (lastOwner c others).isSome then none else some w
  | .element e _ flags w => if e.inverted?.isNone && e.lists flags c then some w else none

def lastOwner (c : Nat) : List (Addition ω) → Option ω
  | [] => none
  | a :: as => (lastOwner c as).or (a.gives c)

end

theorem lastOwner_eq (c : Nat) (additions : List (Addition ω)) :
    lastOwner c additions = additions.reverse.findSome? (·.gives c) := by
  induction additions with
  | nil => rw [lastOwner, List.reverse_nil, List.findSome?_nil]
  | cons a as ih =>
    rw [lastOwner, ih, List.reverse_cons, List.findSome?_append, List.findSome?_singleton]

namespace ClassSet

/-- The result is a set in which code points have the owners that `gives` says, and the others
have those that they had. -/
def Overrides (s : ClassSet ω) (gives : Nat → Option ω)
    (result : Except ClassSetFault (ClassSet ω)) : Prop :=
  ∃ t, result = .ok t ∧ t.Valid ∧ ∀ c ≤ maxCodePoint, t.ownerOf? c = (gives c).or (s.ownerOf? c)

theorem Adds.overrides {s : ClassSet ω} {w : ω} {p : Nat → Bool} {hidden : Bool}
    {result : Except ClassSetFault (ClassSet ω)} (h : Adds s w p hidden result) :
    s.Overrides (fun c => if p c then some w else none) result := by
  obtain ⟨t, ht, hvalid, -, howner⟩ := h
  refine ⟨t, ht, hvalid, fun c hc => ?_⟩
  rw [howner c hc]
  by_cases hp : p c <;> simp [hp]

mutual

theorem apply_overrides {s : ClassSet ω} (hs : s.Valid) :
    ∀ a : Addition ω, s.Overrides (fun c => a.gives c) (a.apply s)
  | .run first last fits w => by
    obtain ⟨t, ht, hvalid, -, howner⟩ := addRun_ok hs fits.1 (Nat.le_trans fits.1 fits.2) w
    refine ⟨t, by rw [Addition.apply, ht], hvalid, fun c hc => ?_⟩
    simp only [howner c hc, Addition.gives]
    split <;> rfl
  | .set others => by
    obtain ⟨t, ht, hvalid, howner⟩ := build_overrides valid_empty others
    obtain ⟨u, hu, hvalid', -, howner'⟩ := addSet_ok hs hvalid
    refine ⟨u, by rw [Addition.apply, ht]; exact hu, hvalid', fun c hc => ?_⟩
    simp only [howner' c hc, howner c hc, Addition.gives, ownerOf_empty, Option.or_none]
  | .complement others w => by
    obtain ⟨t, ht, hvalid, howner⟩ := build_overrides valid_empty others
    obtain ⟨u, hu, hvalid', -, howner'⟩ := addComplement_ok hs hvalid w
    refine ⟨u, by rw [Addition.apply, ht]; exact hu, hvalid', fun c hc => ?_⟩
    simp only [howner' c hc, contains, howner c hc, Addition.gives, ownerOf_empty, Option.or_none]
    split <;> rfl
  | .element e bounded flags w => by
    have h := addElement_adds flags w hs e bounded
    simp only [Addition.apply, Addition.gives]
    cases hinv : e.inverted? with
    | some r =>
      rw [hinv] at h
      rw [show addElement flags w s e = _ from h]
      exact ⟨s, rfl, hs, fun c _ => rfl⟩
    | none =>
      rw [hinv] at h
      have ⟨t, ht, _⟩ := h
      rw [AddsUnless, ht] at h
      rw [ht]
      exact h.overrides

theorem build_overrides {s : ClassSet ω} (hs : s.Valid) :
    ∀ additions : List (Addition ω),
      s.Overrides (fun c => lastOwner c additions) (s.build additions)
  | [] => by
    rw [build]
    exact ⟨s, rfl, hs, fun c _ => by simp only [lastOwner, Option.none_or]⟩
  | a :: as => by
    obtain ⟨t, ht, hvalid, howner⟩ := apply_overrides hs a
    obtain ⟨u, hu, hvalid', howner'⟩ := build_overrides hvalid as
    refine ⟨u, by rw [build, ht]; exact hu, hvalid', fun c hc => ?_⟩
    simp only [howner' c hc, howner c hc, lastOwner, Option.or_assoc]

end

/-- The set gives each code point its owner, and so do its runs, which have code points and come
in increasing order. -/
structure Represents (s : ClassSet ω) (owner : Nat → Option ω) : Prop where
  owners : ∀ c ≤ maxCodePoint, s.ownerOf? c = owner c
  fit : ∀ run ∈ s.runs, run.Fits
  ordered : s.runs.Pairwise fun a b => a.last < b.first
  runs : ∀ c ≤ maxCodePoint, ∀ w,
    (∃ run ∈ s.runs, run.owner = w ∧ run.Covers c) ↔ owner c = some w

theorem Valid.represents {s : ClassSet ω} (hs : s.Valid) {owner : Nat → Option ω}
    (h : ∀ c ≤ maxCodePoint, s.ownerOf? c = owner c) : s.Represents owner where
  owners := h
  fit := hs.fits
  ordered := runsOf_sorted hs.sorted hs.bounded
  runs c hc w := by rw [← h c hc, hs.ownerOf_eq_some_iff hc]

/-- Any additions can be made one after the other, and the set represents the map that they make:
the last addition that covers a code point gives it its owner. Adding a set overrides just the
code points that it has, and adding the complement of a set just those that it does not have. -/
theorem build_represents (additions others : List (Addition ω)) :
    ∃ s t : ClassSet ω, empty.build additions = .ok s ∧ empty.build others = .ok t ∧
      s.Represents (fun c => additions.reverse.findSome? (·.gives c)) ∧
      (∃ sum, s.addSet t = .ok sum ∧ sum.Represents fun c => (t.ownerOf? c).or (s.ownerOf? c)) ∧
      ∀ w, ∃ sum, s.addComplement t w = .ok sum ∧
        sum.Represents fun c => if t.contains c then s.ownerOf? c else some w := by
  obtain ⟨s, hs, hvalid, howner⟩ := build_overrides valid_empty additions
  obtain ⟨t, ht, hvalid', -⟩ := build_overrides valid_empty others
  refine ⟨s, t, hs, ht, hvalid.represents fun c hc => ?_, ?_, fun w => ?_⟩
  · simp only [howner c hc, lastOwner_eq, ownerOf_empty, Option.or_none]
  · obtain ⟨sum, hsum, hv, -, h⟩ := addSet_ok hvalid hvalid'
    exact ⟨sum, hsum, hv.represents h⟩
  · obtain ⟨sum, hsum, hv, -, h⟩ := addComplement_ok hvalid hvalid' w
    exact ⟨sum, hsum, hv.represents h⟩

end ClassSet

end PhpSyntax.Pattern
