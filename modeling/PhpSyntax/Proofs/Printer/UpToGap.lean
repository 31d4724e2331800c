import PhpSyntax.Lexer.Scan

namespace PhpSyntax.Lexer

/-- The characters of ASCII that leave a mark are no white space. -/
theorem not_whiteSpace {c : Char} (hlow : 0x21 ≤ c.toNat) (hhigh : c.toNat ≤ 0x7e) :
    Text.isWhiteSpace c = false := by
  simp only [Text.isWhiteSpace, Text.whiteSpaceRanges, Text.inRanges]
  grind

theorem ne_of_whiteSpace {c x : Char} (hc : Text.isWhiteSpace c = true)
    (hx : Text.isWhiteSpace x = false) : c ≠ x := by
  rintro rfl
  exact Bool.false_ne_true (hx.symm.trans hc)

def Visible (p : Char → Bool) : Prop :=
  ∀ c, Text.isWhiteSpace c = true → p c = false

namespace Visible

variable {p q : Char → Bool}

theorem of_ascii (h : ∀ c, p c = true → 0x21 ≤ c.toNat ∧ c.toNat ≤ 0x7e) : Visible p := by
  intro c hc
  cases hp : p c with
  | false => rfl
  | true =>
    obtain ⟨hlow, hhigh⟩ := h c hp
    exact absurd rfl (ne_of_whiteSpace hc (not_whiteSpace hlow hhigh))

theorem or (hp : Visible p) (hq : Visible q) : Visible fun c => p c || q c := by
  intro c hc
  simp [hp c hc, hq c hc]

theorem eq (x : Char) (hx : Text.isWhiteSpace x = false) :
    Visible fun c => decide (c = x) :=
  fun _ hc => decide_eq_false (ne_of_whiteSpace hc hx)

theorem range (lo hi : Char) (h : ∀ c, p c = true → lo ≤ c ∧ c ≤ hi)
    (hlo : 0x21 ≤ lo.toNat) (hhi : hi.toNat ≤ 0x7e) : Visible p := by
  refine of_ascii fun c hc => ?_
  have hlow : lo.toNat ≤ c.toNat := UInt32.le_iff_toNat_le.mp (h c hc).1
  have hhigh : c.toNat ≤ hi.toNat := UInt32.le_iff_toNat_le.mp (h c hc).2
  omega

theorem isDigit : Visible Char.isDigit :=
  range '0' '9' (by simp [Char.isDigit, Char.le_def]) (by decide) (by decide)

theorem isUpper : Visible Char.isUpper :=
  range 'A' 'Z' (fun _ hc => of_decide_eq_true hc) (by decide) (by decide)

theorem isLower : Visible Char.isLower :=
  range 'a' 'z' (fun _ hc => (Bool.and_eq_true_iff.mp hc).imp of_decide_eq_true of_decide_eq_true)
    (by decide) (by decide)

theorem isAlpha : Visible Char.isAlpha :=
  isUpper.or isLower

theorem isHexDigit : Visible isHexDigit := by
  have lower : Visible fun c => decide ('a' ≤ c) && decide (c ≤ 'f') :=
    range 'a' 'f' (by simp) (by decide) (by decide)
  have upper : Visible fun c => decide ('A' ≤ c) && decide (c ≤ 'F') :=
    range 'A' 'F' (by simp) (by decide) (by decide)
  exact (isDigit.or lower).or upper

theorem isBinaryDigit : Visible isBinaryDigit :=
  (eq '0' rfl).or (eq '1' rfl)

theorem isOctalDigit : Visible isOctalDigit :=
  range '0' '7' (by simp [Lexer.isOctalDigit]) (by decide) (by decide)

theorem digits (hp : Visible p) : Visible fun c => p c || decide (c = '_') :=
  hp.or (eq '_' rfl)

end Visible

/-- Two texts agree up to a place where both end, or where both have white space. A line feed is
only replaced by a line feed there, and anything else by a line feed or a space. -/
inductive UpToGap : List Char → List Char → Prop
  | nil : UpToGap [] []
  | same {cs ds : List Char} (c : Char) : UpToGap cs ds → UpToGap (c :: cs) (c :: ds)
  | gap {a b : Char} {cs ds : List Char} (ha : Text.isWhiteSpace a = true)
      (hb : b = '\n' ∨ b = ' ' ∧ a ≠ '\n') : UpToGap (a :: cs) (b :: ds)

namespace UpToGap

variable {cs ds : List Char} {p : Char → Bool}

theorem whiteSpace_of_gap {a b : Char} (hb : b = '\n' ∨ b = ' ' ∧ a ≠ '\n') :
    Text.isWhiteSpace b = true := by
  obtain rfl | ⟨rfl, -⟩ := hb <;> decide

theorem eq_nil (h : UpToGap [] ds) : ds = [] := by
  cases h
  rfl

theorem append (xs : List Char) (h : UpToGap cs ds) : UpToGap (xs ++ cs) (xs ++ ds) := by
  induction xs with
  | nil => exact h
  | cons x xs ih => exact .same x ih

theorem startsWith_eq (h : UpToGap cs ds) (hp : Visible p) : startsWith p ds = startsWith p cs := by
  cases h with
  | nil | same => rfl
  | gap ha hb => simp [startsWith, hp _ ha, hp _ (whiteSpace_of_gap hb)]

/-- What a test does not see at the end of a piece, it does not see there after the change. -/
theorem startsWith_of (h : UpToGap cs ds) (hfeed : p '\n' = false) (hspace : p ' ' = false)
    (hd : startsWith p ds = true) : startsWith p cs = true := by
  cases h with
  | nil | same => exact hd
  | gap ha hb => obtain rfl | ⟨rfl, -⟩ := hb <;> simp [startsWith, hfeed, hspace] at hd

theorem head?_iff (h : UpToGap cs ds) {x : Char}
    (hx : Text.isWhiteSpace x = false) :
    ds.head? = some x ↔ cs.head? = some x := by
  cases h with
  | nil | same => rfl
  | gap ha hb => simp [ne_of_whiteSpace ha hx, ne_of_whiteSpace (whiteSpace_of_gap hb) hx]

/-- The texts go on alike after characters that a test sees in both. -/
theorem tail (h : UpToGap cs ds) (hp : Visible p) (hs : startsWith p cs = true) :
    UpToGap cs.tail ds.tail := by
  cases h with
  | nil => exact .nil
  | same c h => exact h
  | gap ha hb => simp [startsWith, hp _ ha] at hs

theorem runLength_eq (h : UpToGap cs ds) (hp : Visible p) : runLength p ds = runLength p cs := by
  induction h with
  | nil => rfl
  | same c h ih =>
    simp only [runLength, List.takeWhile_cons] at ih ⊢
    split
    · simp [ih]
    · rfl
  | gap ha hb => simp [runLength, hp _ ha, hp _ (whiteSpace_of_gap hb)]

theorem drop_runLength (h : UpToGap cs ds) (hp : Visible p) :
    UpToGap (cs.drop (runLength p cs)) (ds.drop (runLength p cs)) := by
  induction h with
  | nil => exact .nil
  | same c h ih =>
    simp only [runLength, List.takeWhile_cons] at ih ⊢
    split
    · exact ih
    · exact .same c h
  | gap ha hb => simpa [runLength, hp _ ha] using .gap ha hb

/-- Whatever the texts start with alike, they go on alike after it. -/
theorem drop_isPrefixOf (h : UpToGap cs ds) {word : List Char}
    (hw : word.any Text.isWhiteSpace = false) :
    word.isPrefixOf ds = word.isPrefixOf cs ∧
      (word.isPrefixOf cs = true → UpToGap (cs.drop word.length) (ds.drop word.length)) := by
  induction word generalizing cs ds with
  | nil => exact ⟨by simp, fun _ => h⟩
  | cons w word ih =>
    rw [List.any_cons, Bool.or_eq_false_iff] at hw
    cases h with
    | nil => simp
    | same c h =>
      obtain ⟨heq, hdrop⟩ := ih h hw.2
      refine ⟨by simp [List.isPrefixOf, heq], fun hp => ?_⟩
      simp only [List.isPrefixOf, Bool.and_eq_true] at hp
      exact hdrop hp.2
    | gap ha hb =>
      have ne : ∀ {c : Char}, Text.isWhiteSpace c = true → (w == c) = false :=
        fun hc => beq_eq_false_iff_ne.mpr (ne_of_whiteSpace hc hw.1).symm
      simp [List.isPrefixOf, ne ha, ne (whiteSpace_of_gap hb)]

theorem longestAt?_eq (h : UpToGap cs ds) :
    Punctuator.longestAt? ds = Punctuator.longestAt? cs := by
  have visible : ∀ p : Punctuator, p.spelling.toList.any Text.isWhiteSpace = false := by
    intro p
    cases p <;> decide
  rw [Punctuator.longestAt?, Punctuator.longestAt?]
  congr
  funext p
  exact (h.drop_isPrefixOf (visible p)).1

section Numbers

theorem fractionLength_eq (h : UpToGap cs ds) : fractionLength ds = fractionLength cs ∧
    UpToGap (cs.drop (fractionLength cs)) (ds.drop (fractionLength cs)) := by
  cases h with
  | nil => exact ⟨rfl, .nil⟩
  | same c h =>
    have hrun : digitsLength Char.isDigit _ = digitsLength Char.isDigit _ :=
      h.runLength_eq Visible.isDigit.digits
    simp only [fractionLength, h.head?_iff (x := '.') rfl, ne_eq, hrun, true_and]
    split
    · exact h.drop_runLength Visible.isDigit.digits
    · exact .same c h
  | gap ha hb =>
    have ha' := ne_of_whiteSpace (x := '.') ha rfl
    have hb' := ne_of_whiteSpace (x := '.') (whiteSpace_of_gap hb) rfl
    simpa [fractionLength, ha', hb'] using .gap ha hb

theorem exponentLength_eq (h : UpToGap cs ds) : exponentLength ds = exponentLength cs := by
  cases h with
  | nil => rfl
  | @same cs ds c h =>
    have sign : Visible fun s => decide (s = '+') || decide (s = '-') :=
      (Visible.eq '+' rfl).or (Visible.eq '-' rfl)
    simp only [exponentLength, h.startsWith_eq sign]
    generalize hs : startsWith (fun s => decide (s = '+') || decide (s = '-')) cs = signed
    have hdigits : UpToGap (cs.drop (if signed = true then 1 else 0))
        (ds.drop (if signed = true then 1 else 0)) := by
      cases signed with
      | false => exact h
      | true => simpa using h.tail sign hs
    have hrun : digitsLength Char.isDigit _ = digitsLength Char.isDigit _ :=
      hdigits.runLength_eq Visible.isDigit.digits
    rw [hdigits.startsWith_eq Visible.isDigit, hrun]
  | gap ha hb =>
    have hletter : Visible fun c => decide (c = 'e') || decide (c = 'E') :=
      (Visible.eq 'e' rfl).or (Visible.eq 'E' rfl)
    simp [exponentLength, hletter _ ha, hletter _ (whiteSpace_of_gap hb)]

theorem decimalLength_eq (h : UpToGap cs ds) (first : Char) :
    decimalLength first ds = decimalLength first cs := by
  have hwhole : digitsLength Char.isDigit ds = digitsLength Char.isDigit cs :=
    h.runLength_eq Visible.isDigit.digits
  have hrest : UpToGap (cs.drop (digitsLength Char.isDigit cs))
      (ds.drop (digitsLength Char.isDigit cs)) := h.drop_runLength Visible.isDigit.digits
  obtain ⟨hfraction, hafter⟩ := hrest.fractionLength_eq
  simp only [decimalLength, hwhole, hfraction, ← List.drop_drop]
  split
  · rw [List.drop_zero, List.drop_zero, hrest.exponentLength_eq]
  · rw [hafter.exponentLength_eq]

theorem radixDigits_visible {letter : Char} {isDigit : Char → Bool}
    (h : radixDigits? letter = some isDigit) : Visible isDigit := by
  unfold radixDigits? at h
  split at h <;> cases h
  · exact .isHexDigit
  · exact .isHexDigit
  · exact .isBinaryDigit
  · exact .isBinaryDigit
  · exact .isOctalDigit
  · exact .isOctalDigit

theorem radixDigits_whiteSpace {c : Char} (h : Text.isWhiteSpace c = true) :
    radixDigits? c = none := by
  unfold radixDigits?
  split
  case h_7 => rfl
  all_goals exact absurd rfl (ne_of_whiteSpace h rfl)

theorem numberLength_eq (h : UpToGap cs ds) (first : Char) :
    numberLength first ds = numberLength first cs := by
  have hdecimal := h.decimalLength_eq first
  unfold numberLength
  cases h with
  | nil => rfl
  | same c h =>
    rw [List.head?_cons, List.head?_cons, hdecimal]
    split
    · next isDigit hd =>
      have hvisible : Visible isDigit := by
        split at hd
        · exact radixDigits_visible hd
        · cases hd
      have hrun : digitsLength isDigit _ = digitsLength isDigit _ :=
        h.runLength_eq hvisible.digits
      rw [List.tail_cons, List.tail_cons, hrun]
    · rfl
  | gap ha hb =>
    simp [radixDigits_whiteSpace ha, radixDigits_whiteSpace (whiteSpace_of_gap hb), hdecimal]

end Numbers

section Tags

theorem toLower_whiteSpace {c : Char} (h : Text.isWhiteSpace c = true) : c.toLower = c := by
  have hupper : ¬ (c.val ≥ 65 ∧ c.val ≤ 90) := of_decide_eq_false (Visible.isUpper c h)
  unfold Char.toLower
  split
  · next hc => exact absurd hc hupper
  · rfl

theorem drop_ignoringCase (h : UpToGap cs ds) {word : List Char}
    (hw : word.any Text.isWhiteSpace = false) :
    ((ds.take word.length).map Char.toLower = word ↔
        (cs.take word.length).map Char.toLower = word) ∧
      ((cs.take word.length).map Char.toLower = word →
        UpToGap (cs.drop word.length) (ds.drop word.length)) := by
  induction word generalizing cs ds with
  | nil => exact ⟨by simp, fun _ => h⟩
  | cons w word ih =>
    rw [List.any_cons, Bool.or_eq_false_iff] at hw
    cases h with
    | nil => simp
    | same c h =>
      obtain ⟨heq, hdrop⟩ := ih h hw.2
      simp only [List.length_cons, List.take_succ_cons, List.map_cons, List.cons.injEq, heq]
      exact ⟨trivial, fun hp => hdrop hp.2⟩
    | gap ha hb =>
      have ne : ∀ {c : Char}, Text.isWhiteSpace c = true → ¬ c.toLower = w := by
        intro c hc
        rw [toLower_whiteSpace hc]
        exact ne_of_whiteSpace hc hw.1
      simp [ne ha, ne (whiteSpace_of_gap hb)]

theorem startsWithIgnoringCase_eq (h : UpToGap cs ds) (word : String)
    (hw : (word.toList.map Char.toLower).any Text.isWhiteSpace = false) :
    startsWithIgnoringCase word ds = startsWithIgnoringCase word cs := by
  have := (h.drop_ignoringCase hw).1
  rw [List.length_map] at this
  simp only [startsWithIgnoringCase, this]

theorem all_whiteSpace_eq (h : UpToGap cs ds) :
    ds.head?.all Text.isWhiteSpace = cs.head?.all Text.isWhiteSpace := by
  cases h with
  | nil | same => rfl
  | gap ha hb => simp [ha, whiteSpace_of_gap hb]

theorem openTagAt?_eq (h : UpToGap cs ds) (options : LexerOptions) :
    openTagAt? options ds = openTagAt? options cs := by
  have hword : ("<?php".toList.map Char.toLower).any Text.isWhiteSpace = false := by decide
  have hecho : "<?=".toList.isPrefixOf ds = "<?=".toList.isPrefixOf cs :=
    (h.drop_isPrefixOf (by decide)).1
  have hshort : "<?".toList.isPrefixOf ds = "<?".toList.isPrefixOf cs :=
    (h.drop_isPrefixOf (by decide)).1
  unfold openTagAt?
  rw [h.startsWithIgnoringCase_eq "<?php" rfl, h.startsWithIgnoringCase_eq "<?xml" rfl, hecho,
    hshort]
  split
  · next hphp =>
    have hrest := (h.drop_ignoringCase hword).2 (of_decide_eq_true hphp)
    rw [show (ds.drop 5).head?.all _ = _ from hrest.all_whiteSpace_eq]
    rfl
  · rfl

end Tags

end UpToGap

end PhpSyntax.Lexer
