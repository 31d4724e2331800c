import PhpSyntax.Proofs.Pattern.ClassSet.Listed
import PhpSyntax.Proofs.Pattern.ClassSet.Runs
import PhpSyntax.Proofs.Pattern.Visit

namespace PhpSyntax.Pattern

namespace Part

def Bounded (part : Part) : Prop :=
  ∀ c, character c ∈ part.visit (fun _ => true) → c.codePoint ≤ maxCodePoint

def StartsBounded (part : Part) : Prop :=
  ∀ e, member e ∈ part.visit (fun _ => true) → ∀ c ∈ e.start?, c ≤ maxCodePoint

def startFits : Part → Bool
  | member e => e.start?.all (· ≤ maxCodePoint)
  | _ => true

theorem startsBounded_iff {part : Part} :
    part.StartsBounded ↔ ∀ q ∈ part.visit (fun _ => true), q.startFits := by
  constructor
  · intro h q hq
    cases q with
    | member e => simpa [startFits, Option.all_eq_true] using h e hq
    | _ => rfl
  · intro h e he
    simpa [startFits, Option.all_eq_true] using h (member e) he

instance (part : Part) : Decidable part.StartsBounded :=
  decidable_of_iff _ startsBounded_iff.symm

theorem Bounded.startsBounded {part : Part} (h : part.Bounded) : part.StartsBounded := by
  intro e he c hc
  have hin : ∀ {p}, p ∈ (ofElement e).visit (fun _ => true) → p ∈ part.visit fun _ => true :=
    fun hp => visit_trans he (mem_visit.mpr (.inr ⟨_, .head _, hp⟩))
  cases e with
  | character x =>
    obtain rfl : x.codePoint = c := Option.some.inj hc
    exact h x (hin (mem_visit.mpr (.inl rfl)))
  | range r =>
    obtain rfl : r.first.codePoint = c := Option.some.inj hc
    exact h r.first (hin (mem_visit.mpr (.inr ⟨_, .head _, mem_visit.mpr (.inl rfl)⟩)))
  | escapedClass | posix | nested | intersection => exact absurd hc (by simp [ClassElement.start?])

theorem StartsBounded.child {part child : Part} (h : part.StartsBounded)
    (hc : child ∈ part.children) : child.StartsBounded :=
  fun e hmem => h e (mem_visit.mpr (.inr ⟨child, hc, hmem⟩))

theorem StartsBounded.members {u : ClassUnion} (h : (union u).StartsBounded) :
    ∀ e ∈ u.elements, (member e).StartsBounded :=
  fun _ he => h.child (List.mem_map_of_mem he)

theorem StartsBounded.le {e : ClassElement} (h : (member e).StartsBounded) {c : Nat}
    (hc : e.start? = some c) : c ≤ maxCodePoint :=
  h e (mem_visit.mpr (.inl rfl)) c hc

end Part

namespace ClassSet

variable {ω : Type} {s t : ClassSet ω} {w : ω} {p q : Nat → Bool} {hidden b : Bool}

/-- The result is a set in which the code points that satisfy `p` have got the owner. -/
def Adds (s : ClassSet ω) (w : ω) (p : Nat → Bool) (hidden : Bool)
    (result : Except ClassSetFault (ClassSet ω)) : Prop :=
  ∃ t, result = .ok t ∧ t.Valid ∧ t.unknown = (s.unknown || hidden) ∧
    ∀ c ≤ maxCodePoint, t.ownerOf? c = if p c then some w else s.ownerOf? c

namespace Adds

variable {result : Except ClassSetFault (ClassSet ω)}

theorem congr (h : Adds s w p hidden result) (hpq : ∀ c, p c = q c) : Adds s w q hidden result :=
  (funext hpq : p = q) ▸ h

theorem nothing (hs : s.Valid) : Adds s w (fun _ => false) false (.ok s) :=
  ⟨s, rfl, hs, (Bool.or_false _).symm, fun _ _ => rfl⟩

theorem unknown (hs : s.Valid) : Adds s w (fun _ => false) true (.ok { s with unknown := true }) :=
  ⟨_, rfl, ⟨hs.sorted, hs.bounded⟩, (Bool.or_true _).symm, fun _ _ => rfl⟩

theorem bind {f : ClassSet ω → Except ClassSetFault (ClassSet ω)} (h : Adds s w p hidden result)
    (hf : ∀ t, t.Valid → Adds t w q b (f t)) :
    Adds s w (fun c => p c || q c) (hidden || b) (result >>= f) := by
  obtain ⟨t, rfl, ht, hunknown, howner⟩ := h
  obtain ⟨u, hu, hvalid, hunknown', howner'⟩ := hf t ht
  refine ⟨u, hu, hvalid, by rw [hunknown', hunknown, Bool.or_assoc], fun c hc => ?_⟩
  rw [howner' c hc, howner c hc]
  by_cases hp : p c <;> by_cases hq : q c <;> simp [hp, hq]

/-- In a set that was empty, just the code points that were added have owners. -/
theorem contains_eq (h : Adds empty w p hidden (.ok t)) {c : Nat} (hc : c ≤ maxCodePoint) :
    t.contains c = p c := by
  obtain ⟨t, ⟨⟩, -, -, howner⟩ := h
  rw [contains, howner c hc]
  cases p c <;> rfl

end Adds

theorem addRun_adds (hs : s.Valid) {first last : Nat} (hfl : first ≤ last)
    (hf : first ≤ maxCodePoint) (w : ω) :
    Adds s w (inRanges [(first, last)]) false (s.addRun first last w) := by
  obtain ⟨t, ht, hvalid, hunknown, howner⟩ := addRun_ok hs hfl hf w
  refine ⟨t, ht, hvalid, by rw [hunknown, Bool.or_false], fun c hc => ?_⟩
  rw [howner c hc]
  exact if_congr (by simp [inRanges]) rfl rfl

def RangesFit (ranges : List (Nat × Nat)) : Prop :=
  ∀ range ∈ ranges, range.1 ≤ range.2 ∧ range.1 ≤ maxCodePoint

instance (ranges : List (Nat × Nat)) : Decidable (RangesFit ranges) :=
  inferInstanceAs (Decidable (∀ range ∈ ranges, _))

theorem addRanges_adds (hs : s.Valid) {ranges : List (Nat × Nat)} (hr : RangesFit ranges) (w : ω) :
    Adds s w (inRanges ranges) false (s.addRanges ranges w) := by
  unfold addRanges
  induction ranges generalizing s with
  | nil => exact .nothing hs
  | cons range ranges ih =>
    have hrange := List.forall_mem_cons.mp hr
    rw [List.foldlM_cons]
    refine ((addRun_adds hs hrange.1.1 hrange.1.2 w).bind fun t ht => ih ht hrange.2).congr ?_
    exact fun c => (inRanges_append [range] ranges c).symm

theorem addSet_adds (hs : s.Valid) (ht : Adds empty w p hidden (.ok t)) :
    Adds s w p hidden (s.addSet t) := by
  obtain ⟨_, ⟨⟩, hvalid, hunknown, howner⟩ := ht
  obtain ⟨u, hu, hvalid', hunknown', howner'⟩ := addSet_ok hs hvalid
  refine ⟨u, hu, hvalid', by rw [hunknown', hunknown]; rfl, fun c hc => ?_⟩
  rw [howner' c hc, howner c hc]
  cases p c <;> rfl

theorem addComplement_adds (hs : s.Valid) (ht : Adds empty w p hidden (.ok t)) :
    Adds s w (fun c => !p c) false (s.addComplement t w) := by
  have hcontains := fun c hc => ht.contains_eq (c := c) hc
  obtain ⟨_, ⟨⟩, hvalid, -, -⟩ := ht
  obtain ⟨u, hu, hvalid', hunknown, howner⟩ := addComplement_ok hs hvalid w
  refine ⟨u, hu, hvalid', by rw [hunknown, Bool.or_false], fun c hc => ?_⟩
  rw [howner c hc, hcontains c hc]
  by_cases hp : p c <;> simp [hp]

theorem addComplementOf_adds (hs : s.Valid) {ranges : List (Nat × Nat)} (hr : RangesFit ranges)
    (w : ω) : Adds s w (fun c => !inRanges ranges c) false (s.addComplementOf ranges w) := by
  have h := addRanges_adds valid_empty hr w
  have ⟨t, ht, _⟩ := h
  rw [ht] at h
  rw [addComplementOf, ht]
  exact addComplement_adds hs h

theorem toNat_le (c : Char) : c.toNat ≤ maxCodePoint := by
  have h : c.toNat.isValidChar := c.valid
  unfold Nat.isValidChar at h
  unfold maxCodePoint
  omega

theorem addCharacter_adds (hs : s.Valid) {code : Nat} (hc : code ≤ maxCodePoint) (flags : Flags)
    (w : ω) : Adds s w (listsCharacter flags code) false (s.addCharacter code flags w) := by
  have hsingle : ∀ {t : ClassSet ω} {c : Nat}, t.Valid → c ≤ maxCodePoint →
      Adds t w (fun x => x = c) false (t.addRun c c w) := fun ht hc =>
    (addRun_adds ht (Nat.le_refl _) hc w).congr fun x => by
      rw [Bool.eq_iff_iff]
      simp [inRanges]
      omega
  refine Adds.congr ((hsingle hs hc).bind (q := fun x => ((Text.charOf? code).filter fun y =>
    folds flags (isAscii y)).any fun y => x = (Text.lowerChar y).toNat ||
      x = (Text.upperChar y).toNat) (b := false) fun t ht => ?_) fun c => rfl
  dsimp only
  split
  · rename_i h
    rw [h]
    exact .nothing ht
  · rename_i y h
    rw [h]
    exact (hsingle ht (toNat_le _)).bind fun u hu => hsingle hu (toNat_le _)

/-- The ranges between folded ends are left out where they are empty. -/
theorem addRange_adds (hs : s.Valid) {first last : Nat} (hfl : first ≤ last)
    (hf : first ≤ maxCodePoint) (flags : Flags) (w : ω) :
    Adds s w (inRanges (listedRanges flags first last)) false (s.addRange first last flags w) := by
  unfold addRange listedRanges
  cases foldedEnds? first last flags with
  | none => exact addRun_adds hs hfl hf w
  | some ends =>
    obtain ⟨a, b⟩ := ends
    dsimp only
    generalize hcases : [((Text.lowerChar a).toNat, (Text.lowerChar b).toNat),
      ((Text.upperChar a).toNat, (Text.upperChar b).toNat)] = cases
    have hfit : RangesFit (cases.filter fun range => range.1 ≤ range.2) := by
      intro range hrange
      obtain ⟨hrange, hle⟩ := List.mem_filter.mp hrange
      refine ⟨by simpa using hle, ?_⟩
      subst hcases
      simp only [List.mem_cons, List.not_mem_nil, or_false] at hrange
      obtain rfl | rfl := hrange
      · exact toNat_le _
      · exact toNat_le _
    have hany : cases.any (fun range => range.1 ≤ range.2) = true ↔
        cases.filter (fun range => range.1 ≤ range.2) ≠ [] := by
      simp [List.filter_eq_nil_iff]
    split
    · rename_i h
      split
      · exact absurd ‹_› (hany.mp h)
      · exact (addRanges_adds hs hfit w).congr (inRanges_filter cases)
    · rename_i h
      rw [not_not.mp (hany.not.mp h)]
      exact addRun_adds hs hfl hf w

/-- An escape that may stand for more than its ranges. -/
theorem words_adds (hs : s.Valid) {ranges : List (Nat × Nat)} (hr : RangesFit ranges) (hidden : Bool)
    (w : ω) : Adds s w (inRanges ranges) hidden (do
      let sum ← s.addRanges ranges w
      return { sum with unknown := sum.unknown || hidden }) := by
  have h := (addRanges_adds hs hr w).bind (q := fun _ => false) (b := hidden)
    fun t ht => ⟨{ t with unknown := t.unknown || hidden }, rfl, ⟨ht.sorted, ht.bounded⟩, rfl,
      fun _ _ => rfl⟩
  rw [Bool.false_or] at h
  exact h.congr fun c => Bool.or_false _

theorem addEscapedClass_adds (hs : s.Valid) (letter : Char) (flags : Flags) (w : ω) :
    Adds s w (listsEscape flags letter) (hidesEscape flags letter)
      (s.addEscapedClass letter flags w) := by
  have hspace : RangesFit (spaceRanges flags) := by
    unfold spaceRanges
    split
    · decide
    · decide
  have hcapital : ∀ ranges, RangesFit ranges →
      Adds s w (fun c => !flags.unicodeClass && !inRanges ranges c) flags.unicodeClass
        (if flags.unicodeClass then .ok { s with unknown := true }
          else s.addComplementOf ranges w) := by
    intro ranges hr
    cases flags.unicodeClass with
    | true => exact .unknown hs
    | false => exact addComplementOf_adds hs hr w
  unfold addEscapedClass
  dsimp only
  split
  · exact words_adds hs (by decide) _ w
  · exact words_adds hs (by decide) _ w
  · exact hcapital digitRanges (by decide)
  · exact hcapital wordRanges (by decide)
  · exact addRanges_adds hs hspace w
  · exact addComplementOf_adds hs hspace w
  · exact addRanges_adds hs (by decide) w
  · exact addComplementOf_adds hs (by decide) w
  · exact addRanges_adds hs (by decide) w
  · exact addComplementOf_adds hs (by decide) w
  · rename_i h
    have hlists : ∀ c, listsEscape flags letter c = false := by
      intro c
      unfold listsEscape
      split <;> simp_all
    have hhides : hidesEscape flags letter = true := by
      simp_all [hidesEscape]
    rw [hhides]
    exact (Adds.unknown hs).congr fun c => (hlists c).symm

theorem addNested_adds (hs : s.Valid) (ht : Adds empty w p hidden (.ok t)) (negated : Bool) :
    Adds s w (fun c => if negated then !hidden && !p c else p c) hidden
      (s.addNested t negated w) := by
  have hunknown : t.unknown = hidden := by
    obtain ⟨_, ⟨⟩, -, h, -⟩ := ht
    exact h
  unfold addNested
  rw [hunknown]
  cases negated with
  | false => exact addSet_adds hs ht
  | true =>
    cases hidden with
    | true => exact .unknown hs
    | false => exact addComplement_adds hs ht

/-- The result tells of an inverted range, or the code points that satisfy `p` have got the owner. -/
def AddsUnless (inverted? : Option ClassRange) (s : ClassSet ω) (w : ω) (p : Nat → Bool)
    (hidden : Bool) (result : Except ClassSetFault (ClassSet ω)) : Prop :=
  match inverted? with
  | some r => result = .error (.invertedRange r.first.codePoint r.last.codePoint r.span)
  | none => Adds s w p hidden result

mutual

theorem addElement_adds (flags : Flags) (w : ω) {s : ClassSet ω} (hs : s.Valid) :
    ∀ e : ClassElement, (Part.member e).StartsBounded →
      AddsUnless e.inverted? s w (fun c => e.lists flags c) (e.hides flags) (addElement flags w s e)
  | .character c, he => by
    rw [addElement]
    exact addCharacter_adds hs (he.le rfl) flags w
  | .range r, he => by
    rw [addElement, ClassElement.inverted?]
    split
    · rfl
    · rename_i hle
      exact addRange_adds hs (Nat.le_of_not_lt hle) (he.le rfl) flags w
  | .escapedClass e, _ => by
    rw [addElement]
    exact addEscapedClass_adds hs e.letter flags w
  | .posix _, _ => by
    rw [addElement]
    exact Adds.unknown hs
  | .nested ⟨negated, ⟨elements, flags, span⟩, span'⟩, he => by
    have hunion : (Part.union ⟨elements, flags, span⟩).StartsBounded :=
      (he.child (.head _)).child (.head _)
    have hinner := addElements_adds flags w valid_empty elements hunion.members
    rw [addElement, ClassElement.inverted?]
    cases hinv : firstInverted? elements with
    | some r =>
      rw [hinv] at hinner
      rw [show addElements flags w empty elements = _ from hinner]
      rfl
    | none =>
      rw [hinv] at hinner
      have ⟨t, ht, _⟩ := hinner
      rw [AddsUnless, ht] at hinner
      rw [ht]
      simp only [ClassElement.lists, ClassElement.hides]
      exact addNested_adds hs hinner negated
  | .intersection _ _, _ => by
    rw [addElement]
    exact Adds.unknown hs

theorem addElements_adds (flags : Flags) (w : ω) {s : ClassSet ω} (hs : s.Valid) :
    ∀ es : List ClassElement, (∀ e ∈ es, (Part.member e).StartsBounded) →
      AddsUnless (firstInverted? es) s w (fun c => anyLists flags c es) (anyHides flags es)
        (addElements flags w s es)
  | [], _ => by
    rw [addElements]
    exact Adds.nothing hs
  | e :: es, hes => by
    have hes' := List.forall_mem_cons.mp hes
    have he := addElement_adds flags w hs e hes'.1
    rw [addElements, firstInverted?]
    cases hinv : e.inverted? with
    | some r =>
      rw [hinv] at he
      rw [show addElement flags w s e = _ from he]
      rfl
    | none =>
      rw [hinv] at he
      rw [Option.none_or]
      cases hinv' : firstInverted? es with
      | some r =>
        obtain ⟨t, ht, hvalid, -⟩ := he
        have hrest := addElements_adds flags w hvalid es hes'.2
        rw [hinv'] at hrest
        rw [ht]
        exact hrest
      | none =>
        simp only [anyLists, anyHides]
        refine he.bind fun t ht => ?_
        have hrest := addElements_adds flags w ht es hes'.2
        rw [hinv'] at hrest
        exact hrest

end

/-- A member gives the owner to the code points that it lists, unless a range in it is inverted. -/
theorem ofElement_adds {e : ClassElement} (he : (Part.member e).StartsBounded) (flags : Flags)
    (w : ω) : AddsUnless e.inverted? empty w (fun c => e.lists flags c) (e.hides flags)
      (ofElement e flags w) :=
  addElement_adds flags w valid_empty e he

/-- The code points of a member make a valid set. -/
theorem ofElement_valid {e : ClassElement} {flags : Flags} (he : (Part.member e).StartsBounded)
    (h : ofElement e flags w = .ok s) : s.Valid := by
  have hadds := ofElement_adds he flags w
  unfold AddsUnless at hadds
  split at hadds
  · rw [h] at hadds
    cases hadds
  · obtain ⟨t, ht, hvalid, -⟩ := hadds
    cases h.symm.trans ht
    exact hvalid

end ClassSet

end PhpSyntax.Pattern
