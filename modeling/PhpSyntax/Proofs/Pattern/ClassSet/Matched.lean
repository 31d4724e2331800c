import PhpSyntax.Proofs.Pattern.ClassSet.Listed
import PhpSyntax.Proofs.Text.Ascii

/-!
What a member of a class matches, said without listing anything: what is listed of a member is
compared with this. Case is that of ASCII letters. What POSIX classes, properties and intersections
match is left open, and so is what counts as a digit or a word beyond ASCII.
-/

namespace PhpSyntax.Pattern

def isCapital (code : Nat) : Bool :=
  0x41 ≤ code && code ≤ 0x5A

def isSmall (code : Nat) : Bool :=
  0x61 ≤ code && code ≤ 0x7A

def isCasePair (capital small : Nat) : Bool :=
  isCapital capital && small = capital + 0x20

def matchesCharacter (flags : Flags) (code c : Nat) : Prop :=
  c = code ∨ flags.caseInsensitive = true ∧ (isCasePair code c = true ∨ isCasePair c code = true)

def matchesRange (flags : Flags) (first last c : Nat) : Prop :=
  ∃ code, first ≤ code ∧ code ≤ last ∧ matchesCharacter flags code c

/-- An escape matches its table, or what is outside of it if its letter is a capital. Beyond ASCII
there may be more digits and words, and of the other escapes nothing is said. -/
def matchesEscape (flags : Flags) (letter : Char) (c : Nat) (extra : Prop) : Prop :=
  match letter with
  | 'd' => inRanges digitRanges c ∨ flags.unicodeClass ∧ extra
  | 'w' => inRanges wordRanges c ∨ flags.unicodeClass ∧ extra
  | 'D' => ¬ (inRanges digitRanges c ∨ flags.unicodeClass ∧ extra)
  | 'W' => ¬ (inRanges wordRanges c ∨ flags.unicodeClass ∧ extra)
  | 's' => inRanges (ClassSet.spaceRanges flags) c
  | 'S' => ¬ inRanges (ClassSet.spaceRanges flags) c
  | 'h' => inRanges horizontalSpaceRanges c
  | 'H' => ¬ inRanges horizontalSpaceRanges c
  | 'v' => inRanges verticalSpaceRanges c
  | 'V' => ¬ inRanges verticalSpaceRanges c
  | _ => extra

mutual

/-- Whether a member matches a code point under the flags. What is left open is chosen by
`choice` for each place in the member on its own. -/
def ClassElement.Matches (choice : List Nat → Nat → Prop) (place : List Nat) (flags : Flags)
    (c : Nat) : ClassElement → Prop
  | .character x => matchesCharacter flags x.codePoint c
  | .range r => matchesRange flags r.first.codePoint r.last.codePoint c
  | .escapedClass e => matchesEscape flags e.letter c (choice place c)
  | .nested ⟨negated, ⟨elements, flags, _⟩, _⟩ =>
    if negated then ¬ AnyMatches choice place flags c elements
    else AnyMatches choice place flags c elements
  | .posix _ => choice place c
  | .intersection _ _ => choice place c

def AnyMatches (choice : List Nat → Nat → Prop) (place : List Nat) (flags : Flags) (c : Nat) :
    List ClassElement → Prop
  | [] => False
  | e :: es => e.Matches choice (es.length :: place) flags c ∨ AnyMatches choice place flags c es

end

def Flags.FoldsAscii (flags : Flags) : Prop :=
  flags.caseInsensitive = true → flags.unicodeCase = false

instance (flags : Flags) : Decidable flags.FoldsAscii :=
  inferInstanceAs (Decidable (flags.caseInsensitive = true → flags.unicodeCase = false))

/-- Whether a letter of ASCII stands between two code points exactly if its other case does. -/
def closedUnderCase (first last : Nat) : Bool :=
  (List.range 26).all fun i => decide (first ≤ 0x41 + i ∧ 0x41 + i ≤ last) =
    decide (first ≤ 0x61 + i ∧ 0x61 + i ≤ last)

/-- Whether all that a range matches is listed. Where case does not matter, a range between letters
of ASCII has to start and end in the same case, and any other range has to have both cases of a
letter or none. -/
def foldsFully (flags : Flags) (first last : Nat) : Bool :=
  !flags.caseInsensitive ||
    if (isCapital first || isSmall first) && (isCapital last || isSmall last) then
      isCapital first = isCapital last
    else closedUnderCase first last

mutual

/-- Whether all ranges of a member that stand under an odd number of negations are listed in
full, `odd` being whether the member itself does. -/
def ClassElement.foldsWell (odd : Bool) (flags : Flags) : ClassElement → Bool
  | .range r => !odd || foldsFully flags r.first.codePoint r.last.codePoint
  | .nested ⟨negated, ⟨elements, flags, _⟩, _⟩ => allFoldWell (odd ^^ negated) flags elements
  | .character _ | .escapedClass _ | .posix _ | .intersection _ _ => true

def allFoldWell (odd : Bool) (flags : Flags) : List ClassElement → Bool
  | [] => true
  | e :: es => e.foldsWell odd flags && allFoldWell odd flags es

end

section Characters

variable {flags : Flags} {code c first last : Nat}

theorem isCapital_iff : isCapital code = true ↔ 0x41 ≤ code ∧ code ≤ 0x5A := by
  simp [isCapital]

theorem isSmall_iff : isSmall code = true ↔ 0x61 ≤ code ∧ code ≤ 0x7A := by
  simp [isSmall]

theorem isCasePair_iff {capital small : Nat} :
    isCasePair capital small = true ↔
      (0x41 ≤ capital ∧ capital ≤ 0x5A) ∧ small = capital + 0x20 := by
  simp [isCasePair, isCapital_iff]

theorem closedUnderCase_iff : closedUnderCase first last = true ↔
    ∀ capital, 0x41 ≤ capital → capital ≤ 0x5A →
      (first ≤ capital ∧ capital ≤ last ↔ first ≤ capital + 0x20 ∧ capital + 0x20 ≤ last) := by
  simp only [closedUnderCase, List.all_eq_true, List.mem_range, decide_eq_true_eq, decide_eq_decide]
  constructor
  · intro h capital hlow hhigh
    obtain ⟨i, rfl⟩ := Nat.exists_eq_add_of_le hlow
    rw [h i (by omega), Nat.add_right_comm]
  · intro h i hi
    rw [h (0x41 + i) (by omega) (by omega), Nat.add_right_comm]

theorem folds_eq (hflags : flags.FoldsAscii) (ascii : Bool) :
    ClassSet.folds flags ascii = (flags.caseInsensitive && ascii) := by
  unfold ClassSet.folds
  cases h : flags.caseInsensitive with
  | false => rfl
  | true => rw [hflags h, Bool.or_false]

/-- What is listed of a character is what it matches. -/
theorem listsCharacter_iff (hflags : flags.FoldsAscii) :
    ClassSet.listsCharacter flags code c = true ↔ matchesCharacter flags code c := by
  simp only [ClassSet.listsCharacter, matchesCharacter, isCasePair_iff, folds_eq hflags,
    Bool.or_eq_true, decide_eq_true_eq]
  cases flags.caseInsensitive with
  | false => simp
  | true =>
    by_cases hcode : code < 0x80
    · have hchar := Text.charOf_ascii hcode
      generalize Char.ofNat code = x at hchar
      obtain rfl := Text.toNat_of_charOf hchar
      have hfolds : (true && ClassSet.isAscii x) = true := by simp [ClassSet.isAscii, hcode]
      simp only [hchar, Option.filter_some, hfolds, if_true, Option.any_some, Bool.or_eq_true,
        decide_eq_true_eq, Text.toNat_lowerChar hcode, Text.toNat_upperChar hcode, true_and]
      split <;> split <;> omega
    · have hnone : (Text.charOf? code).filter (fun x => true && ClassSet.isAscii x) = none := by
        refine Option.filter_eq_none_iff.mpr fun x hx => ?_
        simp [ClassSet.isAscii, Text.toNat_of_charOf hx, hcode]
      rw [hnone]
      simp
      omega

end Characters

section Ranges

variable {flags : Flags} {c first last : Nat}

theorem isLetter_iff {code : Nat} : (isCapital code || isSmall code) = true ↔
    (0x41 ≤ code ∧ code ≤ 0x5A) ∨ (0x61 ≤ code ∧ code ≤ 0x7A) := by
  rw [Bool.or_eq_true, isCapital_iff, isSmall_iff]

theorem isAlphabetic_eq {x : Char} (h : x.toNat < 0x80) :
    Text.isAlphabetic x = (isCapital x.toNat || isSmall x.toNat) :=
  Text.isAlphabetic_ascii h

/-- A range has folded ends where case does not matter and both ends are letters of ASCII. -/
theorem foldedEnds?_eq (hflags : flags.FoldsAscii) : ClassSet.foldedEnds? first last flags =
    if flags.caseInsensitive &&
      ((isCapital first || isSmall first) && (isCapital last || isSmall last)) then
      some (Char.ofNat first, Char.ofNat last)
    else none := by
  unfold ClassSet.foldedEnds?
  by_cases hascii : first < 0x80 ∧ last < 0x80
  · have hfirst := Text.charOf_ascii hascii.1
    have hlast := Text.charOf_ascii hascii.2
    have ha : (Char.ofNat first).toNat = first := Text.toNat_of_charOf hfirst
    have hb : (Char.ofNat last).toNat = last := Text.toNat_of_charOf hlast
    simp only [hfirst, hlast, Option.bind_eq_bind, Option.bind_some, folds_eq hflags,
      ClassSet.isAscii, isAlphabetic_eq (ha.trans_lt hascii.1),
      isAlphabetic_eq (hb.trans_lt hascii.2), ha, hb, hascii, decide_true, Bool.and_true]
    rw [Bool.and_comm flags.caseInsensitive]
    split
    · next h => simp [guard, h]
    · next h => simp only [guard, Bool.and_assoc] at h ⊢; rw [if_neg h]; rfl
  · rw [if_neg]
    · refine Option.eq_none_iff_forall_ne_some.mpr fun ends hends => hascii ?_
      simp only [Option.bind_eq_bind, Option.bind_eq_some_iff, folds_eq hflags] at hends
      obtain ⟨a, ha, b, hb, _, hguard, -⟩ := hends
      have hletters := (Option.guard_eq_some' ()).mp hguard
      rw [← Text.toNat_of_charOf ha, ← Text.toNat_of_charOf hb]
      simp only [ClassSet.isAscii, Bool.and_eq_true, decide_eq_true_eq] at hletters
      exact hletters.2.2
    · simp only [Bool.and_eq_true, isLetter_iff]
      omega

def smallForm (code : Nat) : Nat :=
  if isCapital code then code + 0x20 else code

section Letters

variable {x : Char} (h : (isCapital x.toNat || isSmall x.toNat) = true)
include h

theorem toNat_lowerChar_letter : (Text.lowerChar x).toNat = smallForm x.toNat := by
  have := isLetter_iff.mp h
  rw [Text.toNat_lowerChar (by omega), smallForm]
  exact if_congr isCapital_iff.symm rfl rfl

theorem toNat_upperChar_letter : (Text.upperChar x).toNat = smallForm x.toNat - 0x20 := by
  have := isLetter_iff.mp h
  rw [Text.toNat_upperChar (by omega), smallForm]
  simp only [isCapital_iff]
  split <;> split <;> omega

end Letters

theorem smallForm_eq {code : Nat} (h : (isCapital code || isSmall code) = true) :
    (smallForm code = code + 0x20 ∧ 0x41 ≤ code ∧ code ≤ 0x5A) ∨
      (smallForm code = code ∧ 0x61 ≤ code ∧ code ≤ 0x7A) := by
  have hletter := isLetter_iff.mp h
  unfold smallForm
  split
  · next hc => exact .inl ⟨rfl, isCapital_iff.mp hc⟩
  · next hc => exact .inr ⟨rfl, hletter.resolve_left (mt isCapital_iff.mpr hc)⟩

/-- A range between letters whose case does not matter lists small letters and their capitals,
unless its first letter comes after its last one in the alphabet. -/
theorem listedRanges_letters (hflags : flags.FoldsAscii) (hfold : flags.caseInsensitive = true)
    (hfirst : (isCapital first || isSmall first) = true)
    (hlast : (isCapital last || isSmall last) = true) :
    ClassSet.listedRanges flags first last =
      if smallForm first ≤ smallForm last then
        [(smallForm first, smallForm last), (smallForm first - 0x20, smallForm last - 0x20)]
      else [(first, last)] := by
  have ha : (Char.ofNat first).toNat = first :=
    Text.toNat_of_charOf (Text.charOf_ascii (by have := isLetter_iff.mp hfirst; omega))
  have hb : (Char.ofNat last).toNat = last :=
    Text.toNat_of_charOf (Text.charOf_ascii (by have := isLetter_iff.mp hlast; omega))
  have ha' : (isCapital (Char.ofNat first).toNat || isSmall (Char.ofNat first).toNat) = true := by
    rwa [ha]
  have hb' : (isCapital (Char.ofNat last).toNat || isSmall (Char.ofNat last).toNat) = true := by
    rwa [hb]
  have hsmall := And.intro (smallForm_eq hfirst) (smallForm_eq hlast)
  simp only [ClassSet.listedRanges, foldedEnds?_eq hflags, hfold, hfirst, hlast, Bool.and_self,
    if_true, toNat_lowerChar_letter ha', toNat_lowerChar_letter hb', toNat_upperChar_letter ha',
    toNat_upperChar_letter hb', ha, hb]
  refine if_congr ?_ rfl rfl
  simp
  omega

theorem listedRanges_plain (hflags : flags.FoldsAscii) (h : (flags.caseInsensitive &&
    ((isCapital first || isSmall first) && (isCapital last || isSmall last))) = false) :
    ClassSet.listedRanges flags first last = [(first, last)] := by
  simp only [ClassSet.listedRanges, foldedEnds?_eq hflags, h, Bool.false_eq_true, if_false]

/-- A range matches what is between its ends, and the other case of a letter there. -/
theorem matchesRange_iff : matchesRange flags first last c ↔ first ≤ c ∧ c ≤ last ∨
    flags.caseInsensitive = true ∧ ((0x41 ≤ c ∧ c ≤ 0x5A) ∧ first ≤ c + 0x20 ∧ c + 0x20 ≤ last ∨
      (0x61 ≤ c ∧ c ≤ 0x7A) ∧ first ≤ c - 0x20 ∧ c - 0x20 ≤ last) := by
  constructor
  · rintro ⟨code, hfirst, hlast, rfl | ⟨hfold, hpair⟩⟩
    · exact .inl ⟨hfirst, hlast⟩
    · rw [isCasePair_iff, isCasePair_iff] at hpair
      exact .inr ⟨hfold, by omega⟩
  · rintro (⟨hfirst, hlast⟩ | ⟨hfold, ⟨hc, hfirst, hlast⟩ | ⟨hc, hfirst, hlast⟩⟩)
    · exact ⟨c, hfirst, hlast, .inl rfl⟩
    · exact ⟨_, hfirst, hlast, .inr ⟨hfold, .inr (isCasePair_iff.mpr ⟨hc, rfl⟩)⟩⟩
    · exact ⟨_, hfirst, hlast, .inr ⟨hfold, .inl (isCasePair_iff.mpr (by omega))⟩⟩

theorem inRanges_singleton : inRanges [(first, last)] c = true ↔ first ≤ c ∧ c ≤ last := by
  simp [inRanges]

theorem inRanges_pair {first' last' : Nat} : inRanges [(first, last), (first', last')] c = true ↔
    first ≤ c ∧ c ≤ last ∨ first' ≤ c ∧ c ≤ last' := by
  simp [inRanges]

/-- What is listed of a range is matched. -/
theorem matchesRange_of_listed (hflags : flags.FoldsAscii) (hle : first ≤ last)
    (h : inRanges (ClassSet.listedRanges flags first last) c = true) :
    matchesRange flags first last c := by
  rw [matchesRange_iff]
  cases hletters : flags.caseInsensitive &&
      ((isCapital first || isSmall first) && (isCapital last || isSmall last)) with
  | false =>
    rw [listedRanges_plain hflags hletters, inRanges_singleton] at h
    exact .inl h
  | true =>
    simp only [Bool.and_eq_true] at hletters
    obtain ⟨hfold, hfirst, hlast⟩ := hletters
    have hsmall := And.intro (smallForm_eq hfirst) (smallForm_eq hlast)
    rw [listedRanges_letters hflags hfold hfirst hlast] at h
    split at h
    · rw [inRanges_pair] at h
      refine or_iff_not_imp_left.mpr fun hout => ⟨hfold, ?_⟩
      omega
    · exact .inl (inRanges_singleton.mp h)

/-- All that a range matches is listed exactly if it folds fully. -/
theorem foldsFully_iff (hflags : flags.FoldsAscii) (hle : first ≤ last) :
    foldsFully flags first last = true ↔ ∀ c, matchesRange flags first last c →
      inRanges (ClassSet.listedRanges flags first last) c = true := by
  simp only [matchesRange_iff]
  cases hfold : flags.caseInsensitive with
  | false =>
    rw [listedRanges_plain hflags (by rw [hfold]; rfl)]
    simp [foldsFully, hfold, inRanges_singleton]
  | true =>
    cases hletters : (isCapital first || isSmall first) && (isCapital last || isSmall last) with
    | false =>
      rw [listedRanges_plain hflags (by rw [hfold, hletters]; rfl)]
      simp only [foldsFully, hfold, hletters, inRanges_singleton, Bool.not_true, Bool.false_or,
        Bool.false_eq_true, if_false, closedUnderCase_iff, true_and]
      constructor
      · intro h c hc
        have hcapital := h c
        have hsmall := h (c - 0x20)
        omega
      · intro h capital hlow hhigh
        have hcapital := h capital
        have hsmall := h (capital + 0x20)
        omega
    | true =>
      obtain ⟨hfirst, hlast⟩ := Bool.and_eq_true_iff.mp hletters
      have hsmall := And.intro (smallForm_eq hfirst) (smallForm_eq hlast)
      rw [listedRanges_letters hflags hfold hfirst hlast]
      have hsame : foldsFully flags first last = true ↔ (first ≤ 0x5A ↔ last ≤ 0x5A) := by
        have hcapital : isCapital first = isCapital last ↔ (first ≤ 0x5A ↔ last ≤ 0x5A) := by
          rw [Bool.eq_iff_iff, isCapital_iff, isCapital_iff]
          omega
        simp [foldsFully, hfold, hletters, hcapital]
      rw [hsame]
      split
      · simp only [inRanges_pair, true_and]
        refine ⟨fun h c hc => by omega, fun h => ?_⟩
        -- between the capitals and the small letters stand six other characters
        have hbracket := h 0x5B
        omega
      · simp only [inRanges_singleton, true_and]
        refine ⟨fun h c hc => by omega, fun h => ?_⟩
        have hcase := h (first + 0x20)
        omega

end Ranges

end PhpSyntax.Pattern
