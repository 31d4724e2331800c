import PhpSyntax.Proofs.Pattern.ClassSet.Elements
import PhpSyntax.Proofs.Pattern.ClassSet.Matched

/-!
The set of a member compared with what the member matches. A negation turns the comparison around:
what is listed has to be matched outside of a negated class, and what is matched has to be listed
inside of it. A range between letters of different case, or with one case of a letter only, is not
listed in full where case does not matter, so that a class which negates it gets too many code
points.
-/

namespace PhpSyntax.Pattern

namespace Part

def characterFits : Part → Bool
  | character c => c.codePoint ≤ maxCodePoint
  | _ => true

theorem bounded_iff {part : Part} :
    part.Bounded ↔ ∀ q ∈ part.visit (fun _ => true), q.characterFits := by
  constructor
  · intro h q hq
    cases q with
    | character c => simpa [characterFits] using h c hq
    | _ => rfl
  · intro h c hc
    simpa [characterFits] using h (character c) hc

instance (part : Part) : Decidable part.Bounded :=
  decidable_of_iff _ bounded_iff.symm

instance (P : ClassUnion → Prop) [DecidablePred P] (part : Part) : Decidable (part.Holds P) :=
  decidable_of_iff (∀ u ∈ part.unions, P u) (by simp only [mem_unions, Holds])

end Part

/-- One statement leads to the other: the first to the second, or the second back to the first. -/
def Leads (back : Bool) (p q : Prop) : Prop :=
  match back with
  | false => p → q
  | true => q → p

namespace Leads

variable {back : Bool} {p q p' q' : Prop}

theorem of_iff (h : p ↔ q) : Leads back p q := by
  cases back with
  | false => exact h.mp
  | true => exact h.mpr

theorem or (h : Leads back p q) (h' : Leads back p' q') : Leads back (p ∨ p') (q ∨ q') := by
  cases back with
  | false => exact Or.imp h h'
  | true => exact Or.imp h h'

/-- A negation turns the direction around. -/
theorem not (h : Leads (!back) p q) : Leads back (¬ p) (¬ q) := by
  cases back with
  | false => exact mt h
  | true => exact mt h

end Leads

variable {choice : List Nat → Nat → Prop} {place : List Nat} {flags : Flags} {c : Nat} {back : Bool}

/-- What is listed of an escape is matched, and where nothing is hidden, this is all. -/
theorem listsEscape_leads (letter : Char) (extra : Prop)
    (hhides : back = true → ClassSet.hidesEscape flags letter = false) :
    Leads back (ClassSet.listsEscape flags letter c = true)
      (matchesEscape flags letter c extra) := by
  have hwords : ∀ inside : Bool, (back = true → flags.unicodeClass = false) →
      Leads back (inside = true) (inside = true ∨ flags.unicodeClass = true ∧ extra) ∧
      Leads back ((!flags.unicodeClass && !inside) = true)
        (¬ (inside = true ∨ flags.unicodeClass = true ∧ extra)) := by
    intro inside hlisted
    cases hclass : flags.unicodeClass with
    | false => exact ⟨.of_iff (by simp), .of_iff (by simp)⟩
    | true =>
      cases back with
      | false => exact ⟨.inl, nofun⟩
      | true => exact nomatch hclass.symm.trans (hlisted rfl)
  unfold ClassSet.listsEscape matchesEscape
  split
  · exact (hwords _ hhides).1
  · exact (hwords _ hhides).1
  · exact (hwords _ hhides).2
  · exact (hwords _ hhides).2
  · exact .of_iff .rfl
  · exact .of_iff (by simp)
  · exact .of_iff .rfl
  · exact .of_iff (by simp)
  · exact .of_iff .rfl
  · exact .of_iff (by simp)
  · have hhidden : ClassSet.hidesEscape flags letter = true := by simp_all [ClassSet.hidesEscape]
    cases back with
    | false => exact nofun
    | true => exact nomatch hhidden.symm.trans (hhides rfl)

theorem range_leads {r : ClassRange} (hflags : flags.FoldsAscii)
    (hle : r.first.codePoint ≤ r.last.codePoint)
    (hfolds : (ClassElement.range r).foldsWell back flags = true) :
    Leads back (inRanges (ClassSet.listedRanges flags r.first.codePoint r.last.codePoint) c = true)
      (matchesRange flags r.first.codePoint r.last.codePoint c) := by
  cases back with
  | false => exact matchesRange_of_listed hflags hle
  | true =>
    rw [ClassElement.foldsWell] at hfolds
    exact (foldsFully_iff hflags hle).mp hfolds c

theorem holds_nested {P : ClassUnion → Prop} {b : CharacterClass} :
    (Part.member (.nested b)).Holds P ↔
      P b.union ∧ ∀ e ∈ b.union.elements, (Part.member e).Holds P := by
  rw [Part.holds_member, ← Part.holds_union, ← Part.holds_characterClass]
  rfl

theorem inverted_range {r : ClassRange} (h : (ClassElement.range r).inverted? = none) :
    r.first.codePoint ≤ r.last.codePoint := by
  simpa [ClassElement.inverted?] using h

mutual

theorem ClassElement.lists_leads (back : Bool) {flags : Flags} (hflags : flags.FoldsAscii)
    (place : List Nat) :
    ∀ e : ClassElement, (Part.member e).Holds (·.flags.FoldsAscii) → e.inverted? = none →
      e.foldsWell back flags = true → (back = true → e.hides flags = false) →
      Leads back (e.lists flags c = true) (e.Matches choice place flags c)
  | .character x, _, _, _, _ => by
    rw [ClassElement.lists, ClassElement.Matches]
    exact .of_iff (listsCharacter_iff hflags)
  | .range r, _, hinv, hfolds, _ => by
    rw [ClassElement.lists, ClassElement.Matches]
    exact range_leads hflags (inverted_range hinv) hfolds
  | .escapedClass e, _, _, _, hhides => by
    rw [ClassElement.lists, ClassElement.Matches]
    exact listsEscape_leads e.letter _ hhides
  | .posix _, _, _, _, hhides => by
    rw [ClassElement.lists, ClassElement.Matches]
    cases back with
    | false => exact nofun
    | true => exact nomatch hhides rfl
  | .intersection _ _, _, _, _, hhides => by
    rw [ClassElement.lists, ClassElement.Matches]
    cases back with
    | false => exact nofun
    | true => exact nomatch hhides rfl
  | .nested ⟨negated, ⟨elements, flags', _⟩, _⟩, hnested, hinv, hfolds, hhides => by
    obtain ⟨hflags', helements⟩ := holds_nested.mp hnested
    rw [ClassElement.inverted?] at hinv
    rw [ClassElement.foldsWell] at hfolds
    rw [ClassElement.hides] at hhides
    rw [ClassElement.lists, ClassElement.Matches]
    have hinner := anyLists_leads (back ^^ negated) hflags' place elements helements hinv hfolds
    cases negated with
    | false =>
      rw [Bool.xor_false] at hinner
      exact hinner hhides
    | true =>
      rw [Bool.xor_true] at hinner
      rw [if_pos rfl, if_pos rfl]
      cases hhidden : anyHides flags' elements with
      | false => simpa using (hinner fun _ => hhidden).not
      | true =>
        cases back with
        | false => exact fun h => by simp at h
        | true => exact nomatch hhidden.symm.trans (hhides rfl)

theorem anyLists_leads (back : Bool) {flags : Flags} (hflags : flags.FoldsAscii)
    (place : List Nat) :
    ∀ es : List ClassElement, (∀ e ∈ es, (Part.member e).Holds (·.flags.FoldsAscii)) →
      firstInverted? es = none → allFoldWell back flags es = true →
      (back = true → anyHides flags es = false) →
      Leads back (anyLists flags c es = true) (AnyMatches choice place flags c es)
  | [], _, _, _, _ => by
    rw [anyLists, AnyMatches]
    exact .of_iff (by simp)
  | e :: es, hes, hinv, hfolds, hhides => by
    rw [List.forall_mem_cons] at hes
    rw [firstInverted?, Option.or_eq_none_iff] at hinv
    rw [allFoldWell, Bool.and_eq_true] at hfolds
    simp only [anyHides, Bool.or_eq_false_iff] at hhides
    rw [anyLists, AnyMatches, Bool.or_eq_true]
    exact (e.lists_leads back hflags _ hes.1 hinv.1 hfolds.1 fun h => (hhides h).1).or
      (anyLists_leads back hflags place es hes.2 hinv.2 hfolds.2 fun h => (hhides h).2)

end

theorem foldsFully_of_sensitive {first last : Nat} (h : flags.caseInsensitive = false) :
    foldsFully flags first last = true := by
  rw [foldsFully, h]
  rfl

mutual

/-- Where case matters, nothing is left out. -/
theorem ClassElement.foldsWell_of_sensitive {flags : Flags} (hflags : flags.caseInsensitive = false)
    (odd : Bool) : ∀ e : ClassElement,
      (Part.member e).Holds (·.flags.caseInsensitive = false) → e.foldsWell odd flags = true
  | .character _, _ | .escapedClass _, _ | .posix _, _ | .intersection _ _, _ => by
    rw [ClassElement.foldsWell]
  | .range r, _ => by
    rw [ClassElement.foldsWell, foldsFully_of_sensitive hflags, Bool.or_true]
  | .nested ⟨negated, ⟨elements, flags', _⟩, _⟩, h => by
    obtain ⟨hflags', helements⟩ := holds_nested.mp h
    rw [ClassElement.foldsWell]
    exact allFoldWell_of_sensitive hflags' _ elements helements

theorem allFoldWell_of_sensitive {flags : Flags} (hflags : flags.caseInsensitive = false)
    (odd : Bool) : ∀ es : List ClassElement,
      (∀ e ∈ es, (Part.member e).Holds (·.flags.caseInsensitive = false)) →
      allFoldWell odd flags es = true
  | [], _ => by rw [allFoldWell]
  | e :: es, h => by
    rw [List.forall_mem_cons] at h
    rw [allFoldWell, e.foldsWell_of_sensitive hflags odd h.1,
      allFoldWell_of_sensitive hflags odd es h.2, Bool.and_self]

end

namespace ClassSet

variable {ω : Type} {e : ClassElement}

/-- A member without inverted ranges makes a set of what is listed of it. -/
theorem ofElement_lists (hbounded : (Part.member e).Bounded) (hinv : e.inverted? = none)
    (flags : Flags) (w : ω) :
    ∃ s, ofElement e flags w = .ok s ∧ s.unknown = e.hides flags ∧
      ∀ c ≤ maxCodePoint, s.contains c = e.lists flags c := by
  have hadds := ofElement_adds hbounded.startsBounded flags w
  rw [hinv] at hadds
  have ⟨s, hs, _, hunknown, _⟩ := hadds
  rw [AddsUnless, hs] at hadds
  exact ⟨s, hs, hunknown, fun c hc => hadds.contains_eq hc⟩

/-- Where case matters, the set of a member has what the member matches, whatever is chosen for
what cannot be listed, and all of it unless the set is unknown. -/
theorem ofElement_exact {flags : Flags} (hbounded : (Part.member e).Bounded)
    (hcase : flags.caseInsensitive = false)
    (hcases : (Part.member e).Holds (·.flags.caseInsensitive = false))
    (hinv : e.inverted? = none) (w : ω) :
    ∃ s, ofElement e flags w = .ok s ∧ s.unknown = e.hides flags ∧
      ∀ choice, ∀ c ≤ maxCodePoint,
        (s.contains c → e.Matches choice [] flags c) ∧
        (s.unknown = false → e.Matches choice [] flags c → s.contains c) := by
  obtain ⟨s, hs, hunknown, hcontains⟩ := ofElement_lists hbounded hinv flags w
  have hflags : flags.FoldsAscii := fun h => nomatch hcase.symm.trans h
  have hnested : (Part.member e).Holds (·.flags.FoldsAscii) :=
    fun u hu h => nomatch (hcases u hu).symm.trans h
  refine ⟨s, hs, hunknown, fun choice c hc => ?_⟩
  rw [hcontains c hc, hunknown]
  have hfolds : ∀ back, e.foldsWell back flags = true :=
    fun back => e.foldsWell_of_sensitive hcase back hcases
  exact ⟨e.lists_leads false hflags [] hnested hinv (hfolds false) nofun,
    fun hlisted => e.lists_leads true hflags [] hnested hinv (hfolds true) fun _ => hlisted⟩

/-- Of the class `[^\d[^a-c]]` three letters are left. -/
theorem ofElement_exact_letters :
    let outside : ClassElement := .nested ⟨true, ⟨[.range ⟨⟨0x61, ⟨6, 7⟩⟩, ⟨0x63, ⟨8, 9⟩⟩, ⟨6, 9⟩⟩],
      {}, ⟨6, 9⟩⟩, ⟨4, 10⟩⟩
    let e : ClassElement := .nested ⟨true, ⟨[.escapedClass ⟨'d', none, ⟨2, 4⟩⟩, outside], {},
      ⟨2, 10⟩⟩, ⟨1, 11⟩⟩
    (Part.member e).Bounded ∧ (Part.member e).Holds (·.flags.caseInsensitive = false) ∧
      e.inverted? = none ∧ ∃ s, ofElement e {} () = .ok s ∧
        ∀ c ≤ maxCodePoint, s.contains c ↔ 0x61 ≤ c ∧ c ≤ 0x63 := by
  intro outside e
  have hbounded : (Part.member e).Bounded := by decide +kernel
  have hcases : (Part.member e).Holds (·.flags.caseInsensitive = false) := by decide +kernel
  refine ⟨hbounded, hcases, rfl, ?_⟩
  have hcase : ({} : Flags).caseInsensitive = false := rfl
  obtain ⟨s, hs, hunknown, hexact⟩ := ofElement_exact hbounded hcase hcases rfl ()
  refine ⟨s, hs, fun c hc => ?_⟩
  obtain ⟨hsound, hcomplete⟩ := hexact (fun _ _ => False) c hc
  have hmatches : e.Matches (fun _ _ => False) [] {} c ↔ 0x61 ≤ c ∧ c ≤ 0x63 := by
    simp [e, outside, ClassElement.Matches, AnyMatches, matchesEscape, matchesRange_iff, inRanges,
      digitRanges]
    omega
  exact ⟨fun h => hmatches.mp (hsound h), fun h => hcomplete hunknown (hmatches.mpr h)⟩

/-- In a set that ignores case there is nothing that the member does not match, if the ranges
under an odd number of negations fold fully. -/
theorem ofElement_sound {flags : Flags} (hbounded : (Part.member e).Bounded)
    (hflags : flags.FoldsAscii) (hnested : (Part.member e).Holds (·.flags.FoldsAscii))
    (hinv : e.inverted? = none) (hfolds : e.foldsWell false flags = true) (w : ω) :
    ∃ s, ofElement e flags w = .ok s ∧
      ∀ choice, ∀ c ≤ maxCodePoint, s.contains c → e.Matches choice [] flags c := by
  obtain ⟨s, hs, -, hcontains⟩ := ofElement_lists hbounded hinv flags w
  refine ⟨s, hs, fun choice c hc hin => ?_⟩
  rw [hcontains c hc] at hin
  exact e.lists_leads false hflags [] hnested hinv hfolds nofun hin

/-- In `[^A-M[^A-z]]` the range that is not listed in full stands under two negations. -/
theorem ofElement_sound_twice :
    let flags : Flags := { caseInsensitive := true }
    let outside : ClassElement := .nested ⟨true, ⟨[.range ⟨⟨0x41, ⟨8, 9⟩⟩, ⟨0x7A, ⟨10, 11⟩⟩,
      ⟨8, 11⟩⟩], flags, ⟨8, 11⟩⟩, ⟨6, 12⟩⟩
    let e : ClassElement := .nested ⟨true, ⟨[.range ⟨⟨0x41, ⟨3, 4⟩⟩, ⟨0x4D, ⟨5, 6⟩⟩, ⟨3, 6⟩⟩,
      outside], flags, ⟨3, 12⟩⟩, ⟨1, 13⟩⟩
    (Part.member e).Bounded ∧ (Part.member e).Holds (·.flags.FoldsAscii) ∧
      e.inverted? = none ∧ e.foldsWell false flags = true ∧
      ∃ s, ofElement e flags () = .ok s ∧ s.contains 0x71 ∧
        ∀ choice, e.Matches choice [] flags 0x71 := by
  intro flags outside e
  have hbounded : (Part.member e).Bounded := by decide +kernel
  have hnested : (Part.member e).Holds (·.flags.FoldsAscii) := by decide +kernel
  have hfolds : e.foldsWell false flags = true := by decide +kernel
  refine ⟨hbounded, hnested, rfl, hfolds, ?_⟩
  obtain ⟨s, hs, hsound⟩ := ofElement_sound hbounded (fun _ => rfl) hnested rfl hfolds ()
  have hin : (ofElement e flags ()).toOption.any (·.contains 0x71) := by decide +kernel
  rw [hs] at hin
  exact ⟨s, hs, hin, fun choice => hsound choice _ (by decide) hin⟩

/-- The set of a negated class around a range has only what the class matches exactly if the range
folds fully. -/
theorem negated_range_sound_iff {r : ClassRange} {flags : Flags} {span span' : Span}
    (hbounded : (Part.member (.nested ⟨true, ⟨[.range r], flags, span⟩, span'⟩)).Bounded)
    (hflags : flags.FoldsAscii) (hle : r.first.codePoint ≤ r.last.codePoint) (w : ω) :
    let e : ClassElement := .nested ⟨true, ⟨[.range r], flags, span⟩, span'⟩
    ∃ s, ofElement e flags w = .ok s ∧
      ((∀ choice, ∀ c ≤ maxCodePoint, s.contains c → e.Matches choice [] flags c) ↔
        foldsFully flags r.first.codePoint r.last.codePoint = true) := by
  intro e
  have hinv : e.inverted? = none := by
    simp [e, ClassElement.inverted?, firstInverted?, hle]
  obtain ⟨s, hs, -, hcontains⟩ := ofElement_lists hbounded hinv flags w
  have hlast : r.last.codePoint ≤ maxCodePoint :=
    hbounded r.last (by simp [Part.visit_eq, Part.children, Part.ofElement])
  have hlists : ∀ c, e.lists flags c = true ↔
      ¬ inRanges (listedRanges flags r.first.codePoint r.last.codePoint) c = true := by
    simp [e, ClassElement.lists, anyLists, anyHides, ClassElement.hides]
  have hmatches : ∀ choice c, e.Matches choice [] flags c ↔
      ¬ matchesRange flags r.first.codePoint r.last.codePoint c := by
    simp [e, ClassElement.Matches, AnyMatches]
  refine ⟨s, hs, ?_⟩
  rw [foldsFully_iff hflags hle]
  constructor
  · intro h c hc
    have hmax : c ≤ maxCodePoint := by
      have := matchesRange_iff.mp hc
      unfold maxCodePoint at hlast ⊢
      omega
    by_contra hlisted
    have hin : s.contains c = true := (hcontains c hmax).trans ((hlists c).mpr hlisted)
    exact (hmatches _ c).mp (h (fun _ _ => False) c hmax hin) hc
  · intro h choice c hmax hin
    rw [hcontains c hmax, hlists] at hin
    exact (hmatches choice c).mpr fun hc => hin (h c hc)

/-- The class `[^A-z]` does not match the underscore, which is between the letters, but its set
has it where case does not matter, as only letters are listed of the range. -/
theorem ofElement_contains_unmatched :
    let flags : Flags := { caseInsensitive := true }
    let e : ClassElement := .nested ⟨true, ⟨[.range ⟨⟨0x41, ⟨3, 4⟩⟩, ⟨0x7A, ⟨5, 6⟩⟩, ⟨3, 6⟩⟩],
      flags, ⟨3, 6⟩⟩, ⟨1, 7⟩⟩
    (Part.member e).Bounded ∧ (Part.member e).Holds (·.flags = flags) ∧ e.inverted? = none ∧
      e.hides flags = false ∧ ∃ s, ofElement e flags () = .ok s ∧ s.contains 0x5F ∧
        ∀ choice, ¬ e.Matches choice [] flags 0x5F := by
  intro flags e
  have hbounded : (Part.member e).Bounded := by decide +kernel
  have hflags : (Part.member e).Holds (·.flags = flags) := by decide +kernel
  have hin : (ofElement e flags ()).toOption.any (·.contains 0x5F) := by decide +kernel
  obtain ⟨s, hs, -, -⟩ := ofElement_lists hbounded rfl flags ()
  rw [hs] at hin
  refine ⟨hbounded, hflags, rfl, rfl, s, hs, hin, fun choice => ?_⟩
  simp [e, ClassElement.Matches, AnyMatches, matchesRange_iff]

end ClassSet

end PhpSyntax.Pattern
