import PhpSyntax.Proofs.Pattern.Inversions

/-!
Additions to a set that is changed where it is. A fault leaves behind what was done before it, so
that it matters in which order a member is checked and added. The additions make the same sets as
those that give a new set, and a member that is refused has changed nothing.
-/

namespace PhpSyntax.Pattern

mutual

/-- The range that a member is, or the ranges in it, from left to right. Intersections are not
looked into. -/
def ClassElement.ranges : ClassElement → List ClassRange
  | .character _ => []
  | .range r => [r]
  | .escapedClass _ => []
  | .nested ⟨_, ⟨elements, _, _⟩, _⟩ => rangesIn elements
  | .posix _ => []
  | .intersection _ _ => []

def rangesIn : List ClassElement → List ClassRange
  | [] => []
  | e :: es => e.ranges ++ rangesIn es

end

def ClassRange.isInverted (r : ClassRange) : Bool :=
  r.last.codePoint < r.first.codePoint

mutual

theorem ClassElement.inverted_eq_find :
    ∀ e : ClassElement, e.inverted? = e.ranges.find? ClassRange.isInverted
  | .character _ | .escapedClass _ | .posix _ | .intersection _ _ => by
    rw [ClassElement.inverted?, ClassElement.ranges, List.find?_nil]
  | .range r => by
    simp only [ClassElement.inverted?, ClassElement.ranges, List.find?_cons, List.find?_nil,
      ClassRange.isInverted]
    by_cases h : r.last.codePoint < r.first.codePoint <;> simp [h]
  | .nested ⟨_, ⟨elements, _, _⟩, _⟩ => by
    rw [ClassElement.inverted?, ClassElement.ranges]
    exact firstInverted_eq_find elements

theorem firstInverted_eq_find :
    ∀ es : List ClassElement, firstInverted? es = (rangesIn es).find? ClassRange.isInverted
  | [] => by rw [firstInverted?, rangesIn, List.find?_nil]
  | e :: es => by
    rw [firstInverted?, rangesIn, List.find?_append, ClassElement.inverted_eq_find e,
      firstInverted_eq_find es]

end

namespace ClassSet

variable {ω : Type}

/-- A change of a set in place. What was changed before a fault stays changed. -/
abbrev Update (ω α : Type) := EStateM ClassSetFault (ClassSet ω) α

namespace Update

def result (update : Update ω Unit) (s : ClassSet ω) : Except ClassSetFault (ClassSet ω) :=
  match update s with
  | .ok _ t => .ok t
  | .error fault _ => .error fault

/-- Updates an empty set next to the one that is changed. After a fault it is lost. -/
def apart (update : Update ω Unit) : Update ω (ClassSet ω) := fun s =>
  match update empty with
  | .ok _ t => .ok t s
  | .error fault _ => .error fault s

/-- Gives an owner to the code points from one to another: takes the steps between them away, puts
one after the last code point, and one at the first. -/
def addRun (first last : Nat) (w : ω) : Update ω Unit := do
  let s ← get
  match s.stepsIn first last with
  | .error fault => throw fault
  | .ok covered =>
    modify fun t => { t with steps := t.steps.filter fun step => !covered.any (·.1 = step.1) }
    if last < maxCodePoint then
      modify fun t => { t with steps := insertStep (last + 1) (s.ownerOf? (last + 1)) t.steps }
    modify fun t => { t with steps := insertStep first (some w) t.steps }

def setUnknown (unknown : Bool) : Update ω Unit :=
  modify fun s => { s with unknown := s.unknown || unknown }

def addRanges (ranges : List (Nat × Nat)) (w : ω) : Update ω Unit :=
  ranges.forM fun range => addRun range.1 range.2 w

def addSet (t : ClassSet ω) : Update ω Unit := do
  t.runs.forM fun run => addRun run.first run.last run.owner
  setUnknown t.unknown

def addBetween (w : ω) (next : Nat) : List (Run ω) → Update ω Unit
  | [] => if next ≤ maxCodePoint then addRun next maxCodePoint w else pure ()
  | run :: rest => do
    if next < run.first then addRun next (run.first - 1) w
    addBetween w (run.last + 1) rest

def addComplement (t : ClassSet ω) (w : ω) : Update ω Unit :=
  addBetween w 0 t.runs

def addComplementOf (ranges : List (Nat × Nat)) (w : ω) : Update ω Unit := do
  addComplement (← apart (addRanges ranges w)) w

def addCharacter (code : Nat) (flags : Flags) (w : ω) : Update ω Unit := do
  addRun code code w
  match (Text.charOf? code).filter fun c => folds flags (isAscii c) with
  | none => pure ()
  | some c =>
    addRun (Text.lowerChar c).toNat (Text.lowerChar c).toNat w
    addRun (Text.upperChar c).toNat (Text.upperChar c).toNat w

def addRange (first last : Nat) (flags : Flags) (w : ω) : Update ω Unit :=
  match foldedEnds? first last flags with
  | none => addRun first last w
  | some (a, b) =>
    let cases := [((Text.lowerChar a).toNat, (Text.lowerChar b).toNat),
      ((Text.upperChar a).toNat, (Text.upperChar b).toNat)]
    match cases.filter fun range => range.1 ≤ range.2 with
    | [] => addRun first last w
    | ranges => addRanges ranges w

def addEscapedClass (letter : Char) (flags : Flags) (w : ω) : Update ω Unit :=
  let space := if flags.unicodeClass then unicodeSpaceRanges else asciiSpaceRanges
  let words (ranges : List (Nat × Nat)) : Update ω Unit := do
    addRanges ranges w
    setUnknown flags.unicodeClass
  match letter with
  | 'd' => words digitRanges
  | 'w' => words wordRanges
  | 'D' => if flags.unicodeClass then setUnknown true else addComplementOf digitRanges w
  | 'W' => if flags.unicodeClass then setUnknown true else addComplementOf wordRanges w
  | 's' => addRanges space w
  | 'S' => addComplementOf space w
  | 'h' => addRanges horizontalSpaceRanges w
  | 'H' => addComplementOf horizontalSpaceRanges w
  | 'v' => addRanges verticalSpaceRanges w
  | 'V' => addComplementOf verticalSpaceRanges w
  | _ => setUnknown true

def addNested (inner : ClassSet ω) (negated : Bool) (w : ω) : Update ω Unit :=
  if !negated then addSet inner
  else if inner.unknown then setUnknown true
  else addComplement inner w

mutual

def addElement (flags : Flags) (w : ω) : ClassElement → Update ω Unit
  | .character c => addCharacter c.codePoint flags w
  | .range r =>
    if r.last.codePoint < r.first.codePoint then
      throw (.invertedRange r.first.codePoint r.last.codePoint r.span)
    else addRange r.first.codePoint r.last.codePoint flags w
  | .escapedClass e => addEscapedClass e.letter flags w
  | .nested ⟨negated, ⟨elements, flags, _⟩, _⟩ => do
    addNested (← apart (addElements flags w elements)) negated w
  | .posix _ => setUnknown true
  | .intersection _ _ => setUnknown true

def addElements (flags : Flags) (w : ω) : List ClassElement → Update ω Unit
  | [] => pure ()
  | e :: es => do
    addElement flags w e
    addElements flags w es

end

section Result

variable {update : Update ω Unit} {s t : ClassSet ω}

theorem result_get (f : ClassSet ω → Update ω Unit) :
    (do f (← get) : Update ω Unit).result s = (f s).result s := rfl

theorem result_seq (update next : Update ω Unit) (s : ClassSet ω) :
    (do update; next : Update ω Unit).result s = update.result s >>= next.result := by
  unfold result
  simp only [bind, EStateM.bind]
  cases update s with
  | ok _ t => rfl
  | error fault t => rfl

theorem result_apart (update : Update ω Unit) (next : ClassSet ω → Update ω Unit) (s : ClassSet ω) :
    (do next (← apart update) : Update ω Unit).result s =
      update.result empty >>= fun t => (next t).result s := by
  unfold result
  simp only [bind, EStateM.bind, apart]
  cases update empty with
  | ok _ t => rfl
  | error fault t => rfl

theorem result_ite (p : Prop) [Decidable p] (update other : Update ω Unit) (s : ClassSet ω) :
    (if p then update else other).result s = if p then update.result s else other.result s := by
  split <;> rfl

theorem result_forM {α : Type} {f : α → Update ω Unit}
    {g : ClassSet ω → α → Except ClassSetFault (ClassSet ω)} (h : ∀ a s, (f a).result s = g s a)
    (as : List α) (s : ClassSet ω) : (as.forM f).result s = as.foldlM g s := by
  induction as generalizing s with
  | nil => rfl
  | cons a as ih =>
    refine (result_seq (f a) (as.forM f) s).trans ?_
    rw [h, List.foldlM_cons]
    exact bind_congr ih

theorem result_addRun (first last : Nat) (w : ω) (s : ClassSet ω) :
    (addRun first last w).result s = s.addRun first last w := by
  rw [addRun, result_get, ClassSet.addRun]
  simp only [bind, Except.bind]
  cases s.stepsIn first last with
  | error fault => rfl
  | ok covered => by_cases hlast : last < maxCodePoint <;> simp only [hlast, if_true, if_false] <;> rfl

theorem result_setUnknown (unknown : Bool) (s : ClassSet ω) :
    (setUnknown unknown).result s = .ok { s with unknown := s.unknown || unknown } := rfl

theorem result_addRanges (ranges : List (Nat × Nat)) (w : ω) (s : ClassSet ω) :
    (addRanges ranges w).result s = s.addRanges ranges w :=
  result_forM (fun (range : Nat × Nat) s => result_addRun range.1 range.2 w s) ranges s

theorem result_addSet (t s : ClassSet ω) : (addSet t).result s = s.addSet t := by
  have hruns : (t.runs.forM fun run => addRun run.first run.last run.owner : Update ω Unit).result s =
      t.runs.foldlM (fun s run => s.addRun run.first run.last run.owner) s :=
    result_forM (fun (run : Run ω) s => result_addRun run.first run.last run.owner s) t.runs s
  rw [addSet, result_seq, hruns]
  rfl

theorem result_addBetween (w : ω) (next : Nat) (runs : List (Run ω)) (s : ClassSet ω) :
    (addBetween w next runs).result s = ClassSet.addBetween w s next runs := by
  induction runs generalizing s next with
  | nil =>
    rw [addBetween, ClassSet.addBetween, result_ite, result_addRun]
    rfl
  | cons run rest ih =>
    rw [addBetween, ClassSet.addBetween]
    split
    · rw [result_seq, result_addRun]
      exact bind_congr fun t => ih _ t
    · exact ih _ s

theorem result_addComplement (t : ClassSet ω) (w : ω) (s : ClassSet ω) :
    (addComplement t w).result s = s.addComplement t w :=
  result_addBetween w 0 t.runs s

theorem result_addComplementOf (ranges : List (Nat × Nat)) (w : ω) (s : ClassSet ω) :
    (addComplementOf ranges w).result s = s.addComplementOf ranges w := by
  rw [addComplementOf, result_apart, result_addRanges]
  exact bind_congr fun t => result_addComplement t w s

theorem result_addCharacter (code : Nat) (flags : Flags) (w : ω) (s : ClassSet ω) :
    (addCharacter code flags w).result s = s.addCharacter code flags w := by
  rw [addCharacter, ClassSet.addCharacter, result_seq, result_addRun]
  refine bind_congr fun t => ?_
  cases (Text.charOf? code).filter fun c => folds flags (isAscii c) with
  | none => rfl
  | some c =>
    refine (result_seq _ _ t).trans ?_
    rw [result_addRun]
    exact bind_congr fun u => result_addRun _ _ w u

theorem result_addRange (first last : Nat) (flags : Flags) (w : ω) (s : ClassSet ω) :
    (addRange first last flags w).result s = s.addRange first last flags w := by
  unfold addRange ClassSet.addRange
  cases foldedEnds? first last flags with
  | none => exact result_addRun first last w s
  | some ends =>
    dsimp only
    generalize List.filter _ _ = ranges
    cases ranges with
    | nil => exact result_addRun first last w s
    | cons range ranges => exact result_addRanges (range :: ranges) w s

theorem result_addEscapedClass (letter : Char) (flags : Flags) (w : ω) (s : ClassSet ω) :
    (addEscapedClass letter flags w).result s = s.addEscapedClass letter flags w := by
  have words : ∀ ranges, (do
      addRanges ranges w
      setUnknown flags.unicodeClass : Update ω Unit).result s = (do
      let sum ← s.addRanges ranges w
      return { sum with unknown := sum.unknown || flags.unicodeClass }) := fun ranges => by
    rw [result_seq, result_addRanges]
    rfl
  have unlisted : (setUnknown true).result s = .ok { s with unknown := true } := by
    rw [result_setUnknown, Bool.or_true]
  unfold addEscapedClass
  dsimp only
  split
  · exact words digitRanges
  · exact words wordRanges
  · rw [result_ite, unlisted, result_addComplementOf]
    rfl
  · rw [result_ite, unlisted, result_addComplementOf]
    rfl
  · exact result_addRanges _ w s
  · exact result_addComplementOf _ w s
  · exact result_addRanges _ w s
  · exact result_addComplementOf _ w s
  · exact result_addRanges _ w s
  · exact result_addComplementOf _ w s
  · unfold ClassSet.addEscapedClass
    dsimp only
    split
    all_goals first
      | contradiction
      | exact unlisted

theorem result_addNested (inner : ClassSet ω) (negated : Bool) (w : ω) (s : ClassSet ω) :
    (addNested inner negated w).result s = s.addNested inner negated w := by
  rw [addNested, ClassSet.addNested, result_ite, result_ite, result_addSet, result_addComplement,
    result_setUnknown, Bool.or_true]

mutual

theorem result_addElement (flags : Flags) (w : ω) (s : ClassSet ω) :
    ∀ e : ClassElement, (addElement flags w e).result s = ClassSet.addElement flags w s e
  | .character c => by
    rw [addElement, ClassSet.addElement]
    exact result_addCharacter c.codePoint flags w s
  | .range r => by
    rw [addElement, ClassSet.addElement, result_ite, result_addRange]
    rfl
  | .escapedClass e => by
    rw [addElement, ClassSet.addElement]
    exact result_addEscapedClass e.letter flags w s
  | .nested ⟨negated, ⟨elements, flags, _⟩, _⟩ => by
    rw [addElement, ClassSet.addElement, result_apart, result_addElements flags w empty elements]
    exact bind_congr fun inner => result_addNested inner negated w s
  | .posix _ => by
    rw [addElement, ClassSet.addElement, result_setUnknown, Bool.or_true]
  | .intersection _ _ => by
    rw [addElement, ClassSet.addElement, result_setUnknown, Bool.or_true]

theorem result_addElements (flags : Flags) (w : ω) (s : ClassSet ω) :
    ∀ es : List ClassElement, (addElements flags w es).result s = ClassSet.addElements flags w s es
  | [] => by
    rw [addElements, ClassSet.addElements]
    rfl
  | e :: es => by
    rw [addElements, ClassSet.addElements, result_seq, result_addElement flags w s e]
    exact bind_congr fun t => result_addElements flags w t es

end

theorem eq_of_result (h : update.result s = .ok t) : update s = .ok () t := by
  unfold result at h
  split at h
  · rename_i hs
    cases h
    exact hs
  · cases h

theorem exists_of_result {fault : ClassSetFault} (h : update.result s = .error fault) :
    ∃ t, update s = .error fault t := by
  unfold result at h
  split at h
  · cases h
  · rename_i t hs
    cases h
    exact ⟨t, hs⟩

/-- What fails for other reasons only does not tell of an inverted range. -/
theorem ne_inverted (h : Tells none (update.result s)) (first last : Nat) (span : Span)
    (t : ClassSet ω) : update s ≠ .error (.invertedRange first last span) t := by
  intro hs
  refine h.of_error first last span ?_ rfl
  rw [result, hs]

/-- The range is found before anything is added to the set: that of a member is looked at first,
and the members of a class inside are added to another set. -/
theorem eq_of_addElement {flags : Flags} {w : ω} {e : ClassElement} {first last : Nat} {span : Span}
    (h : addElement flags w e s = .error (.invertedRange first last span) t) : t = s := by
  have hplain : ∀ {update : Update ω Unit} {r : Except ClassSetFault (ClassSet ω)},
      update.result s = r → Tells none r →
      update s = .error (.invertedRange first last span) t → t = s :=
    fun hr ht h => absurd h (ne_inverted (hr ▸ ht) first last span t)
  cases e with
  | character c =>
    rw [addElement] at h
    exact hplain (result_addCharacter _ flags w s) (s.addCharacter_tells flags w _) h
  | range r =>
    rw [addElement] at h
    split at h
    · cases h
      rfl
    · exact hplain (result_addRange _ _ flags w s) (s.addRange_tells _ _ flags w) h
  | escapedClass c =>
    rw [addElement] at h
    exact hplain (result_addEscapedClass _ flags w s) (s.addEscapedClass_tells flags w _) h
  | nested c =>
    obtain ⟨negated, ⟨elements, flags, _⟩, _⟩ := c
    rw [addElement] at h
    simp only [bind, EStateM.bind, apart] at h
    cases hinner : addElements flags w elements empty with
    | ok _ inner =>
      rw [hinner] at h
      exact hplain (result_addNested inner negated w s) (s.addNested_tells inner w negated) h
    | error fault lost =>
      rw [hinner] at h
      cases h
      rfl
  | posix c =>
    rw [addElement] at h
    cases h
  | intersection operands span =>
    rw [addElement] at h
    cases h

end Result

end Update

/-- Unless an addition breaks off, a member is refused exactly if a range in it is inverted. The
first such range is told of, and the set that was to be changed is as it was. -/
theorem addElement_atomic (flags : Flags) (w : ω) (s : ClassSet ω) (e : ClassElement)
    (hends : ∀ first last, addElement flags w s e ≠ .error (.reversedRun first last)) :
    ((∃ fault, addElement flags w s e = .error fault) ↔
      ∃ r ∈ e.ranges, r.last.codePoint < r.first.codePoint) ∧
    (∀ t, addElement flags w s e = .ok t → Update.addElement flags w e s = .ok () t) ∧
    ∀ fault, addElement flags w s e = .error fault → Update.addElement flags w e s = .error fault s ∧
      ∃ r, e.ranges.find? (fun r => r.last.codePoint < r.first.codePoint) = some r ∧
        fault = .invertedRange r.first.codePoint r.last.codePoint r.span := by
  have htells := addElement_tells flags w s e
  have hresult := Update.result_addElement flags w s e
  have hfault : ∀ fault, addElement flags w s e = .error fault →
      ∃ r, e.inverted? = some r ∧
        fault = .invertedRange r.first.codePoint r.last.codePoint r.span := by
    intro fault h
    cases fault with
    | reversedRun first last => exact absurd h (hends first last)
    | invertedRange first last span =>
      obtain ⟨r, hr, rfl, rfl, rfl⟩ := addElement_names e h
      exact ⟨r, hr, rfl⟩
  refine ⟨⟨?_, ?_⟩, ?_, ?_⟩
  · rintro ⟨fault, h⟩
    obtain ⟨r, hr, -⟩ := hfault fault h
    rw [e.inverted_eq_find] at hr
    exact ⟨r, List.mem_of_find?_eq_some hr, by simpa [ClassRange.isInverted] using List.find?_some hr⟩
  · rintro ⟨r, hr, hlt⟩
    cases h : addElement flags w s e with
    | error fault => exact ⟨fault, rfl⟩
    | ok t =>
      have hnone := htells.of_ok t h
      rw [e.inverted_eq_find, List.find?_eq_none] at hnone
      exact absurd (decide_eq_true hlt) (hnone r hr)
  · exact fun t h => Update.eq_of_result (hresult.trans h)
  · intro fault h
    obtain ⟨r, hr, rfl⟩ := hfault fault h
    rw [e.inverted_eq_find] at hr
    obtain ⟨t, hs⟩ := Update.exists_of_result (hresult.trans h)
    obtain rfl := Update.eq_of_addElement hs
    exact ⟨hs, r, hr, rfl⟩

/-- In a class inside a class the word characters are added before the range is met. -/
theorem addElement_atomic_nested :
    let a : Character := ⟨0x61, ⟨6, 7⟩⟩
    let z : Character := ⟨0x7A, ⟨4, 5⟩⟩
    let inner : ClassElement := .nested ⟨true, ⟨[.escapedClass ⟨'w', none, ⟨2, 4⟩⟩,
      .range ⟨z, a, ⟨4, 7⟩⟩, .range ⟨z, a, ⟨8, 11⟩⟩], {}, ⟨2, 11⟩⟩, ⟨1, 12⟩⟩
    let s : ClassSet Nat := ⟨[(0x30, some 1), (0x3A, none)], false⟩
    (∀ first last, addElement {} 0 s inner ≠ .error (.reversedRun first last)) ∧
      Update.addElement {} 0 inner s = .error (.invertedRange 0x7A 0x61 ⟨4, 7⟩) s := by
  intro a z inner s
  have herror : addElement {} 0 s inner = .error (.invertedRange 0x7A 0x61 ⟨4, 7⟩) := by rfl
  have hends : ∀ first last, addElement {} 0 s inner ≠ .error (.reversedRun first last) := by
    rw [herror]
    nofun
  exact ⟨hends, ((addElement_atomic {} 0 s inner hends).2.2 _ herror).1⟩

end ClassSet

end PhpSyntax.Pattern
