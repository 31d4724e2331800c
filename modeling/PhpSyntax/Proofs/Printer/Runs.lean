import Mathlib.Data.List.TakeWhile
import PhpSyntax.Lexer.Scan

namespace PhpSyntax.Lexer

variable {rest rest' : List Char}

section Runs

variable {p : Char → Bool} {xs ys : List Char}

theorem head?_append_of (h : xs ≠ []) (ys : List Char) : (xs ++ ys).head? = xs.head? := by
  cases xs with
  | nil => exact absurd rfl h
  | cons x xs => rfl

theorem startsWith_append (h : xs ≠ []) (ys : List Char) :
    startsWith p (xs ++ ys) = startsWith p xs := by
  rw [startsWith, head?_append_of h, startsWith]

theorem takeWhile_append_of (hx : ∀ x ∈ xs, p x = true) (hy : startsWith p ys = false) :
    (xs ++ ys).takeWhile p = xs := by
  rw [List.takeWhile_append_of_pos hx]
  cases ys with
  | nil => simp
  | cons y ys =>
    have hy : p y = false := hy
    simp [hy]

theorem dropWhile_append_of (hx : ∀ x ∈ xs, p x = true) (hy : startsWith p ys = false) :
    (xs ++ ys).dropWhile p = ys := by
  rw [List.dropWhile_append_of_pos hx]
  cases ys with
  | nil => rfl
  | cons y ys =>
    have hy : p y = false := hy
    simp [hy]

theorem startsWith_dropWhile (cs : List Char) : startsWith p (cs.dropWhile p) = false := by
  induction cs with
  | nil => rfl
  | cons c cs ih =>
    cases hc : p c with
    | true => rwa [List.dropWhile_cons_of_pos hc]
    | false => rw [List.dropWhile_cons_of_neg (by simp [hc])]; exact hc

theorem runLength_eq_zero : runLength p xs = 0 ↔ startsWith p xs = false := by
  cases xs with
  | nil => simp [runLength, startsWith]
  | cons x xs => cases hx : p x <;> simp [runLength, startsWith, hx]

theorem runLength_local {body : List Char}
    (hrest : startsWith p rest' = true → startsWith p rest = true)
    (h : runLength p (body ++ rest) = body.length) :
    runLength p (body ++ rest') = body.length := by
  induction body with
  | nil =>
    refine runLength_eq_zero.mpr (Bool.eq_false_iff.mpr fun hs => ?_)
    exact Bool.false_ne_true ((runLength_eq_zero.mp h).symm.trans (hrest hs))
  | cons c body ih =>
    cases hc : p c with
    | true => simpa [runLength, hc] using ih (by simpa [runLength, hc] using h)
    | false => simp [runLength, hc] at h

end Runs

theorem runLength_ne_zero_of_name {cs : List Char} (h : startsWith isNameStart cs = true) :
    runLength isNameChar cs ≠ 0 := by
  cases cs with
  | nil => cases h
  | cons c cs =>
    have hc : isNameStart c = true := h
    simp [runLength, isNameChar, hc]

theorem nameLength_ne_zero_of_name {cs : List Char} (h : startsWith isNameStart cs = true) :
    nameLength cs ≠ 0 := by
  cases cs with
  | nil => cases h
  | cons c cs =>
    have hc : isNameStart c = true := h
    simp [nameLength, isNameChar, hc]

theorem digitsLength_ne_zero {isDigit : Char → Bool} {cs : List Char}
    (h : startsWith isDigit cs = true) : digitsLength isDigit cs ≠ 0 := by
  cases cs with
  | nil => cases h
  | cons c cs =>
    have hc : isDigit c = true := h
    simp [digitsLength, runLength, hc]

/-- A point starts a number with the digits after it. -/
theorem numberLength_ne_zero {cs : List Char} (h : startsWith Char.isDigit cs = true) :
    (numberLength '.' cs).2 ≠ 0 := by
  have hdigits := digitsLength_ne_zero h
  simp only [numberLength, decimalLength, Char.reduceEq, if_false]
  omega

theorem nameLength_local {body : List Char} (hrest : nameLength rest = 0 → nameLength rest' = 0)
    (h : nameLength (body ++ rest) = body.length) : nameLength (body ++ rest') = body.length := by
  induction body with
  | nil => exact hrest h
  | cons c body ih =>
    simp only [List.cons_append, nameLength, List.length_cons] at h ⊢
    split at h
    · next hp =>
      have hrun := Nat.succ.inj h
      rw [if_pos, ih hrun]
      simp only [Bool.or_eq_true, Bool.and_eq_true] at hp ⊢
      refine hp.imp id (And.imp id fun hs => ?_)
      have hne : body ≠ [] := by
        rintro rfl
        exact nameLength_ne_zero_of_name hs hrun
      rwa [startsWith_append hne] at hs ⊢
    · cases h

theorem head?_append_mono {x : Char} (h : rest'.head? = some x → rest.head? = some x)
    (body : List Char) : (body ++ rest').head? = some x → (body ++ rest).head? = some x := by
  cases body with
  | nil => exact h
  | cons => exact id

theorem startsWith_append_mono {p : Char → Bool}
    (h : startsWith p rest' = true → startsWith p rest = true) (body : List Char) :
    startsWith p (body ++ rest') = true → startsWith p (body ++ rest) = true := by
  cases body with
  | nil => exact h
  | cons => exact id

theorem lineCommentLength_local {body : List Char}
    (hclose : rest'.head? = some '>' → rest.head? = some '>')
    (hrest : lineCommentLength rest = 0 → lineCommentLength rest' = 0)
    (h : lineCommentLength (body ++ rest) = body.length) :
    lineCommentLength (body ++ rest') = body.length := by
  induction body with
  | nil => exact hrest h
  | cons c body ih =>
    simp only [List.cons_append, lineCommentLength, List.length_cons] at h ⊢
    split at h
    · cases h
    · next hn =>
      rw [if_neg, ih (Nat.succ.inj h)]
      refine fun hc => hn ?_
      simp only [Bool.or_eq_true, Bool.and_eq_true, decide_eq_true_eq] at hc ⊢
      exact hc.imp id (And.imp id (head?_append_mono hclose body))

theorem blockCommentRun_pos {cs : List Char} (h : (blockCommentRun cs).2 = true) :
    0 < (blockCommentRun cs).1 := by
  cases cs with
  | nil => cases h
  | cons c cs =>
    unfold blockCommentRun
    split <;> simp

theorem blockCommentRun_local {body : List Char} (rest' : List Char)
    (h : blockCommentRun (body ++ rest) = (body.length, true)) :
    blockCommentRun (body ++ rest') = (body.length, true) := by
  induction body with
  | nil =>
    have := blockCommentRun_pos (congrArg Prod.snd h)
    rw [h] at this
    cases this
  | cons c body ih =>
    simp only [List.cons_append, blockCommentRun, List.length_cons] at h ⊢
    have hne : body ≠ [] := by
      rintro rfl
      split at h
      · cases h
      · have hrun : blockCommentRun ([] ++ rest) = (0, true) := by
          simpa [Prod.ext_iff] using h
        have := blockCommentRun_pos (congrArg Prod.snd hrun)
        rw [hrun] at this
        cases this
    rw [head?_append_of hne] at h ⊢
    split at h
    · next hc => rwa [if_pos hc]
    · next hc =>
      have hrun : blockCommentRun (body ++ rest) = (body.length, true) := by
        simpa [Prod.ext_iff] using h
      rw [if_neg hc, ih hrun]

theorem quotedRun_pos {close : Char} {interpolates : Bool} {state : QuotedState} {cs : List Char}
    (h : (quotedRun close interpolates state cs).closed = true) :
    0 < (quotedRun close interpolates state cs).length := by
  cases cs with
  | nil => cases h
  | cons c cs =>
    unfold quotedRun
    split <;> simp

theorem quotedState_next_local {interpolates : Bool} {state : QuotedState} {c : Char}
    {body : List Char} (h : body ≠ []) (rest rest' : List Char) :
    state.next interpolates c (body ++ rest') = state.next interpolates c (body ++ rest) := by
  cases state <;> simp only [QuotedState.next, startsWith, head?_append_of h]

theorem quotedRun_local {close : Char} {interpolates : Bool} {state : QuotedState}
    {body : List Char} (rest' : List Char)
    (hlength : (quotedRun close interpolates state (body ++ rest)).length = body.length)
    (hclosed : (quotedRun close interpolates state (body ++ rest)).closed = true) :
    quotedRun close interpolates state (body ++ rest') =
      quotedRun close interpolates state (body ++ rest) := by
  induction body generalizing state with
  | nil =>
    have := quotedRun_pos hclosed
    rw [hlength] at this
    cases this
  | cons c body ih =>
    simp only [List.cons_append, quotedRun] at hlength hclosed ⊢
    split at hlength
    · next hc => rw [if_pos hc, if_pos hc]
    · next hc =>
      rw [if_neg hc] at hclosed
      have hlength := Nat.succ.inj hlength
      have hne : body ≠ [] := by
        rintro rfl
        have := quotedRun_pos hclosed
        rw [hlength] at this
        cases this
      rw [if_neg hc, if_neg hc, quotedState_next_local hne rest rest',
        ih hlength hclosed]

section Heredocs

variable {label : List Char}

/-- Whether a line closes a heredoc depends on this line only. -/
theorem closingLength?_line (hlabel : '\n' ∉ label) (line rest rest' : List Char) :
    closingLength? label (line ++ '\n' :: rest') =
      closingLength? label (line ++ '\n' :: rest) := by
  have hbody : ∀ rest, (line ++ '\n' :: rest).dropWhile isBlank =
      line.dropWhile isBlank ++ '\n' :: rest := by
    intro rest
    rw [List.dropWhile_append]
    split
    · next he => rw [List.isEmpty_iff.mp he]; rfl
    · rfl
  have hrun : ∀ rest, runLength isBlank (line ++ '\n' :: rest) = runLength isBlank line := by
    intro rest
    rw [runLength, List.takeWhile_append, runLength]
    split
    · next he => simp [isBlank, he]
    · rfl
  have hprefix : ∀ {label line : List Char}, '\n' ∉ label → ∀ rest,
      label.isPrefixOf (line ++ '\n' :: rest) = label.isPrefixOf line := by
    intro label
    induction label with
    | nil => simp
    | cons c label ih =>
      intro line hc rest
      rw [List.mem_cons, not_or] at hc
      cases line with
      | nil => simp [List.isPrefixOf, Ne.symm hc.1]
      | cons d line => simp [List.isPrefixOf, ih hc.2]
  have hnext : ∀ {line : List Char}, label.isPrefixOf line = true → ∀ rest rest',
      startsWith isNameChar ((line ++ '\n' :: rest').drop label.length) =
        startsWith isNameChar ((line ++ '\n' :: rest).drop label.length) := by
    intro line hp rest rest'
    have hle : label.length ≤ line.length := (List.isPrefixOf_iff_prefix.mp hp).length_le
    rw [List.drop_append_of_le_length hle, List.drop_append_of_le_length hle]
    cases line.drop label.length <;> rfl
  simp only [closingLength?, hbody, hrun, hprefix hlabel]
  cases hp : label.isPrefixOf (line.dropWhile isBlank) with
  | false => rfl
  | true => rw [hnext hp rest rest']

/-- A line that closes a heredoc: blanks, the label and nothing that would continue a name. -/
structure ClosesAt (label line blanks rest : List Char) : Prop where
  split : line = blanks ++ (label ++ rest)
  blanks : ∀ c ∈ blanks, isBlank c = true
  next : startsWith isNameChar rest = false

theorem ne_nil_of_startsWith {p : Char → Bool} {cs : List Char} (h : startsWith p cs = true) :
    cs ≠ [] := by
  rintro rfl
  cases h

/-- A label does not start with a blank. -/
theorem startsWith_isBlank_label (hlabel : startsWith isNameStart label = true) (rest : List Char) :
    startsWith isBlank (label ++ rest) = false := by
  cases label with
  | nil => cases hlabel
  | cons c label =>
    have hc : isNameStart c = true := hlabel
    change isBlank c = false
    rw [Bool.eq_false_iff, isBlank, ne_eq, Bool.or_eq_true, decide_eq_true_eq, decide_eq_true_eq]
    rintro (rfl | rfl)
    · exact Bool.false_ne_true hc
    · exact Bool.false_ne_true hc

theorem closingLength?_eq_some (hlabel : startsWith isNameStart label = true) {line : List Char}
    {n : Nat} : closingLength? label line = some n ↔
      ∃ blanks rest, ClosesAt label line blanks rest ∧ n = (blanks ++ label).length := by
  constructor
  · intro h
    unfold closingLength? at h
    dsimp only at h
    split at h
    · next hc =>
      rw [Bool.and_eq_true, Bool.not_eq_true'] at hc
      obtain ⟨⟨after, hafter⟩, hnext⟩ := hc.imp_left List.isPrefixOf_iff_prefix.mp
      rw [← hafter, List.drop_left] at hnext
      refine ⟨line.takeWhile isBlank, after, ⟨?_, fun c => List.mem_takeWhile_imp, hnext⟩, ?_⟩
      · rw [hafter, List.takeWhile_append_dropWhile]
      · rw [List.length_append]
        exact (Option.some.inj h).symm
    · cases h
  · rintro ⟨blanks, rest, ⟨rfl, hblanks, hnext⟩, rfl⟩
    have hstart := startsWith_isBlank_label hlabel rest
    rw [closingLength?, runLength, dropWhile_append_of hblanks hstart,
      takeWhile_append_of hblanks hstart, List.drop_left, hnext, List.length_append]
    simp

theorem heredocRun_pos (hlabel : startsWith isNameStart label = true) {atLineStart : Bool}
    {cs : List Char} (h : (heredocRun label atLineStart cs).2 = true) :
    0 < (heredocRun label atLineStart cs).1 := by
  cases cs with
  | nil => cases h
  | cons c cs =>
    unfold heredocRun
    split
    · next n hn =>
      cases atLineStart with
      | false => cases hn
      | true =>
        obtain ⟨blanks, rest, -, rfl⟩ := (closingLength?_eq_some hlabel).mp hn
        exact List.length_pos_iff.mpr
          (List.append_ne_nil_of_right_ne_nil _ (ne_nil_of_startsWith hlabel))
    · exact Nat.succ_pos _

/-- A heredoc that is not at the start of a line reaches one before it is closed. -/
theorem heredocRun_feed {cs : List Char} {n : Nat} (h : heredocRun label false cs = (n, true)) :
    '\n' ∈ cs.take n := by
  induction cs generalizing n with
  | nil => cases h
  | cons c cs ih =>
    simp only [heredocRun, Bool.false_eq_true, if_false, Prod.mk.injEq] at h
    obtain ⟨rfl, hclosed⟩ := h
    rw [List.take_succ_cons, List.mem_cons]
    by_cases hc : c = '\n'
    · exact .inl hc.symm
    · refine .inr (ih ?_)
      simp only [hc, decide_false] at hclosed ⊢
      exact Prod.ext rfl hclosed

theorem closingLength?_local (hlabel : startsWith isNameStart label = true)
    (hname : startsWith isNameChar rest' = true → startsWith isNameChar rest = true)
    {body : List Char} (h : closingLength? label (body ++ rest) = some body.length) :
    closingLength? label (body ++ rest') = some body.length := by
  obtain ⟨blanks, after, hcloses, hlength⟩ := (closingLength?_eq_some hlabel).mp h
  have hsplit : body ++ rest = (blanks ++ label) ++ after := by
    rw [List.append_assoc]
    exact hcloses.split
  obtain ⟨rfl, rfl⟩ := List.append_inj hsplit hlength
  have hnext : startsWith isNameChar rest' = false :=
    Bool.eq_false_iff.mpr fun hs => Bool.false_ne_true (hcloses.next.symm.trans (hname hs))
  exact (closingLength?_eq_some hlabel).mpr
    ⟨blanks, rest', ⟨List.append_assoc .., hcloses.blanks, hnext⟩, rfl⟩

theorem heredocRun_local (hlabel : startsWith isNameStart label = true) (hfeed : '\n' ∉ label)
    (hname : startsWith isNameChar rest' = true → startsWith isNameChar rest = true)
    {body : List Char} {atLineStart : Bool}
    (h : heredocRun label atLineStart (body ++ rest) = (body.length, true)) :
    heredocRun label atLineStart (body ++ rest') = (body.length, true) := by
  induction body generalizing atLineStart with
  | nil =>
    have := heredocRun_pos hlabel (congrArg Prod.snd h)
    rw [h] at this
    cases this
  | cons c body ih =>
    simp only [List.cons_append, heredocRun, List.length_cons] at h ⊢
    split at h
    · next n hn =>
      obtain rfl : n = body.length + 1 := congrArg Prod.fst h
      cases atLineStart with
      | false => cases hn
      | true =>
        have hclosing : closingLength? label ((c :: body) ++ rest') = some (body.length + 1) :=
          closingLength?_local hlabel hname hn
        rw [if_pos rfl, ← List.cons_append, hclosing]
    · next hn =>
      have hrun : heredocRun label (decide (c = '\n')) (body ++ rest) = (body.length, true) := by
        simpa [Prod.ext_iff] using h
      have hmem : '\n' ∈ c :: body := by
        by_cases hc : c = '\n'
        · exact hc ▸ List.mem_cons_self
        · simp only [hc, decide_false] at hrun
          have := heredocRun_feed hrun
          rw [List.take_left] at this
          exact List.mem_cons_of_mem _ this
      obtain ⟨line, after, hline⟩ := List.append_of_mem hmem
      have hsame : closingLength? label (c :: (body ++ rest')) =
          closingLength? label (c :: (body ++ rest)) := by
        rw [← List.cons_append, ← List.cons_append, hline, List.append_assoc, List.append_assoc]
        exact closingLength?_line hfeed line _ _
      rw [hsame, hn, ih hrun]

end Heredocs

end PhpSyntax.Lexer
