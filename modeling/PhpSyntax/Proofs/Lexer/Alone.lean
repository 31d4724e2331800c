import PhpSyntax.Proofs.Printer.Readings

/-!
Pieces of code that stand alone. What follows a piece decides where it ends, but nothing about it
changes when the text is cut there.
-/

namespace PhpSyntax.Lexer

variable {body rest : List Char}

section Numbers

theorem digitsLength_alone {isDigit : Char → Bool}
    (h : digitsLength isDigit (body ++ rest) ≤ body.length) :
    digitsLength isDigit body = digitsLength isDigit (body ++ rest) := by
  unfold digitsLength at *
  generalize (fun c => isDigit c || decide (c = '_')) = p at *
  induction body with
  | nil => exact (Nat.le_zero.mp h).symm
  | cons c body ih =>
    cases hc : p c with
    | true => simpa [runLength, hc] using ih (by simpa [runLength, hc] using h)
    | false => simp [runLength, hc]

/-- A cut after a point that starts no fraction would make one. -/
theorem fractionLength_alone (h : fractionLength (body ++ rest) ≤ body.length)
    (hpoint : fractionLength (body ++ rest) = 0 → body.head? ≠ some '.') :
    fractionLength body = fractionLength (body ++ rest) := by
  cases body with
  | nil => exact (Nat.le_zero.mp h).symm
  | cons c body =>
    simp only [List.cons_append, fractionLength] at h hpoint ⊢
    split at h
    · next hc =>
      have hcut : (decide (c = '.') && decide (body.head? ≠ some '.')) = true := by
        rw [Bool.and_eq_true, decide_eq_true_eq, decide_eq_true_eq] at hc ⊢
        refine hc.imp id fun hnext hcut => hnext ?_
        obtain ⟨after, rfl⟩ := List.head?_eq_some_iff.mp hcut
        rfl
      rw [if_pos hc, if_pos hcut]
      exact congrArg (· + 1) (digitsLength_alone (Nat.le_of_succ_le_succ h))
    · next hc =>
      rw [if_neg hc] at hpoint ⊢
      refine if_neg fun hcut => hpoint rfl ?_
      rw [Bool.and_eq_true, decide_eq_true_eq] at hcut
      rw [hcut.1]
      rfl

/-- The digits of an exponent belong to it, and so does the sign before them. -/
theorem exponentLength_alone (h : exponentLength (body ++ rest) = body.length) :
    exponentLength body = body.length := by
  cases body with
  | nil => rfl
  | cons c body =>
    rw [List.cons_append, exponentLength] at h
    rw [exponentLength]
    split at h
    · next hc =>
      rw [if_pos hc]
      generalize hsign :
        (if startsWith (fun s => s = '+' || s = '-') (body ++ rest) then 1 else 0) = sign at h
      dsimp only at h
      split at h
      · next hdigits =>
        have hpos := digitsLength_ne_zero hdigits
        rw [List.length_cons] at h
        have hle : sign ≤ body.length := by omega
        rw [List.drop_append_of_le_length hle] at h hdigits hpos
        have htail : body.drop sign ≠ [] := by
          intro hnil
          have := List.length_eq_zero_iff.mpr hnil
          rw [List.length_drop] at this
          omega
        have hne : body ≠ [] := by
          rintro rfl
          exact htail List.drop_nil
        have hrun : digitsLength Char.isDigit (body.drop sign) =
            digitsLength Char.isDigit (body.drop sign ++ rest) := by
          refine digitsLength_alone ?_
          rw [List.length_drop]
          omega
        rw [startsWith_append hne] at hsign
        rw [startsWith_append htail] at hdigits
        simp only [hsign, hdigits, if_true, hrun, h, List.length_cons]
      · cases h
    · cases h

theorem decimalLength_alone {first : Char}
    (h : (decimalLength first (body ++ rest)).2 = body.length) :
    decimalLength first body = decimalLength first (body ++ rest) := by
  simp only [decimalLength] at h ⊢
  have hwhole : digitsLength Char.isDigit body = digitsLength Char.isDigit (body ++ rest) :=
    digitsLength_alone (by omega)
  rw [hwhole]
  generalize digitsLength Char.isDigit (body ++ rest) = whole at *
  have hle : whole ≤ body.length := by omega
  have htail : (body.drop whole).length = body.length - whole := List.length_drop
  simp only [← List.drop_drop, List.drop_append_of_le_length hle] at h ⊢
  generalize body.drop whole = tail at *
  have hfraction : (if first = '.' then 0 else fractionLength tail) =
      if first = '.' then 0 else fractionLength (tail ++ rest) := by
    split at h
    · next hc => rw [if_pos hc, if_pos hc]
    · next hc =>
      rw [if_neg hc, if_neg hc]
      refine fractionLength_alone (by omega) fun hzero hpoint => ?_
      obtain ⟨after, rfl⟩ := List.head?_eq_some_iff.mp hpoint
      rw [hzero] at h
      simp [exponentLength] at h htail
      omega
  rw [hfraction]
  generalize (if first = '.' then 0 else fractionLength (tail ++ rest)) = fraction at *
  have hle : fraction ≤ tail.length := by omega
  rw [List.drop_append_of_le_length hle] at h ⊢
  have hexponent : exponentLength (tail.drop fraction ++ rest) = (tail.drop fraction).length := by
    rw [List.length_drop]
    omega
  rw [exponentLength_alone hexponent, hexponent]

theorem numberLength_alone {first : Char}
    (h : (numberLength first (body ++ rest)).2 = body.length) :
    numberLength first body = numberLength first (body ++ rest) := by
  have hdecimal := @decimalLength_alone body rest first
  unfold numberLength at h ⊢
  cases body with
  | nil =>
    have hnone : (if first = '0' then ([] : List Char).head?.bind radixDigits? else none) = none :=
      ite_self none
    rw [hnone]
    split at h
    · simp at h
    · exact hdecimal h
  | cons c body =>
    simp only [List.cons_append, List.head?_cons] at h hdecimal ⊢
    split at h
    · next isDigit hradix =>
      have hlength : 1 + digitsLength isDigit (body ++ rest) = body.length + 1 := h
      have hrun : digitsLength isDigit body = digitsLength isDigit (body ++ rest) :=
        digitsLength_alone (by omega)
      simp only [List.tail_cons, hrun]
    · exact hdecimal h

end Numbers

theorem ShowsLess.nil (rest : List Char) : ShowsLess rest [] :=
  ⟨fun _ _ => nofun, nofun, nofun, nofun, fun _ => rfl, fun _ => rfl⟩

theorem heredocAt?_append {c : Char} {header : HeredocHeader} (h : heredocAt? c body = some header)
    (rest : List Char) : heredocAt? c (body ++ rest) = some header := by
  obtain ⟨hc, l, hl, hheader, tail, rfl⟩ := heredocAt?_eq_some.mp h
  exact heredocAt?_eq_some.mpr ⟨hc, l, hl, hheader, tail ++ rest, List.append_assoc ..⟩

theorem castAt?_append {c : Char} {n : Nat} (h : castAt? c body = some n) (rest : List Char) :
    castAt? c (body ++ rest) = some n := by
  unfold castAt? at h ⊢
  split at h
  · next hc =>
    obtain ⟨l, hl, tail, rfl⟩ := CastParts.exists_of_cast h
    rw [CastParts.castLength?_eq hl] at h
    rw [if_pos hc, List.append_assoc, CastParts.castLength?_eq hl, h]
  · cases h

theorem spelling_ne_nil (p : Punctuator) : p.spelling.toList ≠ [] := by
  cases p <;> decide

/-- A punctuator is the longest one of its own spelling. -/
theorem longestAt?_alone {cs : List Char} {p : Punctuator}
    (h : Punctuator.longestAt? (cs ++ rest) = some p)
    (hlength : p.spelling.toList.length = cs.length) : Punctuator.longestAt? cs = some p := by
  obtain ⟨hp, before, after, hall, hbefore⟩ := List.find?_eq_some_iff_append.mp h
  have hprefix : p.spelling.toList <+: cs :=
    List.prefix_of_prefix_length_le (List.isPrefixOf_iff_prefix.mp hp) (List.prefix_append cs rest)
      (Nat.le_of_eq hlength)
  refine List.find?_eq_some_iff_append.mpr
    ⟨List.isPrefixOf_iff_prefix.mpr hprefix, before, after, hall, fun q hq => ?_⟩
  have hq := hbefore q hq
  rw [Bool.not_eq_true', ← Bool.not_eq_true, List.isPrefixOf_iff_prefix] at hq ⊢
  exact fun hcut => hq (hcut.trans (List.prefix_append cs rest))

theorem readPunctuator_alone {c : Char} :
    (readPunctuator c (body ++ rest)).Keeps body.length (readPunctuator c body) := by
  intro hmore hfault
  unfold readPunctuator at hmore hfault ⊢
  cases hp : Punctuator.longestAt? (c :: (body ++ rest)) with
  | none => rw [hp] at hfault; cases hfault
  | some p =>
    rw [hp] at hmore
    have hne := List.length_pos_iff.mpr (spelling_ne_nil p)
    have hlength : p.spelling.toList.length = (c :: body).length := by
      have : p.spelling.toList.length - 1 = body.length := hmore
      rw [List.length_cons]
      omega
    rw [← List.cons_append] at hp
    rw [longestAt?_alone hp hlength]

/-- What a reading of code takes is read in the same way where the text ends after it. -/
theorem readCode_alone (c : Char) (body rest : List Char) :
    (readCode c (body ++ rest)).Keeps body.length (readCode c body) := by
  have hnil : body ++ [] = body := List.append_nil body
  have h : (readCode c (body ++ rest)).Keeps body.length (readCode c (body ++ [])) := by
    refine readCode_local (.nil rest) ?_ ?_ ?_ ?_
    · rw [hnil]
      exact numberLength_alone
    · rw [hnil]
      intro hnone
      cases hh : heredocAt? c body with
      | none => rfl
      | some header => rw [heredocAt?_append hh rest] at hnone; cases hnone
    · rw [hnil]
      intro hnone
      cases hh : castAt? c body with
      | none => rfl
      | some header => rw [castAt?_append hh rest] at hnone; cases hnone
    · rw [hnil]
      exact readPunctuator_alone
  rwa [hnil] at h

end PhpSyntax.Lexer
