import Mathlib.Data.Nat.Digits.Defs
import PhpSyntax.Text.Digits
import PhpSyntax.Text.Quoted

namespace PhpSyntax.Text

/-- Every digit in small letters is read with its value. -/
theorem digitBelow_digitChar {d : Nat} (h : d < 16) :
    digitBelow? 16 (Nat.digitChar d) = some d := by
  have hall : ∀ d < 16, digitBelow? 16 (Nat.digitChar d) = some d := by decide
  exact hall d h

theorem hexDigits_ne_nil (n : Nat) : hexDigits n ≠ [] :=
  Nat.toDigits_ne_nil

theorem hexDigits_append {m d : Nat} (hm : 0 < m) (hd : d < 16) :
    hexDigits (16 * m + d) = hexDigits m ++ [Nat.digitChar d] := by
  have hdiv : (16 * m + d) / 16 = m := by omega
  have hmod : (16 * m + d) % 16 = d := by omega
  rw [hexDigits, Nat.toDigits_of_base_le (by decide) (by omega), hdiv, hmod, hexDigits]

/-- What holds of every digit in small letters holds of all the digits of a number. -/
theorem forall_mem_hexDigits {P : Char → Prop} (hP : ∀ d < 16, P (Nat.digitChar d)) (n : Nat) :
    ∀ c ∈ hexDigits n, P c := by
  induction n using Nat.base_induction 16 (by decide) with
  | single d hd =>
    simpa [hexDigits, Nat.toDigits_of_lt_base hd] using hP d hd
  | digit m d hd hm ih =>
    rw [hexDigits_append hm hd]
    exact List.forall_mem_append.mpr ⟨ih, by simpa using hP d hd⟩

theorem appendDigits_append (base high : Nat) (ds es : List Char) :
    appendDigits? base high (ds ++ es) =
      (appendDigits? base high ds).bind (appendDigits? base · es) := by
  induction ds generalizing high with
  | nil => rfl
  | cons d ds ih =>
    cases h : digitBelow? base d <;> simp [appendDigits?, h, ih]

theorem appendDigits_hexDigits (n : Nat) : appendDigits? 16 0 (hexDigits n) = some n := by
  induction n using Nat.base_induction 16 (by decide) with
  | single d hd =>
    simp [hexDigits, Nat.toDigits_of_lt_base hd, appendDigits?, digitBelow_digitChar hd]
  | digit m d hd hm ih =>
    rw [hexDigits_append hm hd, appendDigits_append, ih]
    simp [appendDigits?, digitBelow_digitChar hd, Nat.mul_comm]

/-- The digits of a number write this number. -/
theorem numberOf_hexDigits (n : Nat) : numberOf? 16 (hexDigits n) = some n := by
  rw [numberOf?, if_neg (by simpa using hexDigits_ne_nil n)]
  exact appendDigits_hexDigits n

theorem charOf_toNat (c : Char) : charOf? c.toNat = some c := by
  have hvalid : c.toNat.isValidChar := c.valid
  rw [charOf?, if_pos hvalid, Char.ofNat_toNat]

def plainEscape? : Char → Option Char
  | '0' => some '\x00'
  | 't' => some '\t'
  | 'r' => some '\r'
  | 'n' => some '\n'
  | '\x22' => some '\x22'
  | '\\' => some '\\'
  | _ => none

def firstQuoted? : List Char → Option (Char × List Char)
  | '\\' :: 'u' :: '\x7b' :: rest => do
    let written := rest.takeWhile (· ≠ '\x7d')
    let c ← charOf? (← numberOf? 16 written)
    return (c, rest.drop (written.length + 1))
  | '\\' :: letter :: rest => (plainEscape? letter).map (·, rest)
  | '\x22' :: _ => none
  | c :: rest => some (c, rest)
  | [] => none

theorem firstQuoted_unicodeEscape (c : Char) (rest : List Char) :
    firstQuoted? (unicodeEscape c ++ rest) = some (c, rest) := by
  have hdigits : ∀ d ∈ hexDigits c.toNat, (decide (d ≠ '\x7d')) = true :=
    forall_mem_hexDigits (by decide) c.toNat
  have hwritten : (hexDigits c.toNat ++ '\x7d' :: rest).takeWhile (· ≠ '\x7d') =
      hexDigits c.toNat := by
    rw [List.takeWhile_append_of_pos hdigits, List.takeWhile_cons_of_neg (by simp), List.append_nil]
  have hrest : (hexDigits c.toNat ++ '\x7d' :: rest).drop ((hexDigits c.toNat).length + 1) =
      rest := by
    simp [List.drop_append]
  simp only [unicodeEscape, List.cons_append, List.append_assoc, List.nil_append, firstQuoted?,
    hwritten, numberOf_hexDigits, Option.bind_eq_bind, Option.bind_some, charOf_toNat, hrest]
  rfl

/-- A written character is read again, whatever follows. -/
theorem firstQuoted_quotedChar (isShown : Char → Bool) (c : Char) (rest : List Char) :
    firstQuoted? (quotedChar isShown c ++ rest) = some (c, rest) := by
  unfold quotedChar
  split
  case h_7 _ _ _ _ hq hb =>
    split
    · rw [List.singleton_append, firstQuoted?]
      all_goals simp_all
    · exact firstQuoted_unicodeEscape c rest
  all_goals rfl

theorem firstQuoted_quote (rest : List Char) : firstQuoted? ('\x22' :: rest) = none := rfl

/-- What is written between quotes ends at the first quote that is not escaped. -/
theorem quotedChars_inj (isShown : Char → Bool) {cs ds r s : List Char}
    (h : cs.flatMap (quotedChar isShown) ++ '\x22' :: r =
      ds.flatMap (quotedChar isShown) ++ '\x22' :: s) : cs = ds ∧ r = s := by
  induction cs generalizing ds with
  | nil =>
    cases ds with
    | nil => simpa using h
    | cons d ds =>
      have h := congrArg firstQuoted? h
      simp [firstQuoted_quotedChar, firstQuoted_quote] at h
  | cons c cs ih =>
    cases ds with
    | nil =>
      have h := congrArg firstQuoted? h
      simp [firstQuoted_quotedChar, firstQuoted_quote] at h
    | cons d ds =>
      have hfirst := congrArg firstQuoted? h
      simp only [List.flatMap_cons, List.append_assoc, firstQuoted_quotedChar, Option.some.injEq,
        Prod.mk.injEq] at hfirst
      obtain ⟨rfl, hrest⟩ := hfirst
      obtain ⟨rfl, rfl⟩ := ih hrest
      exact ⟨rfl, rfl⟩

/-- Different texts are written differently between quotes. -/
theorem quoted_injective (isShown : Char → Bool) : Function.Injective (quoted isShown) := by
  intro a b h
  have h := congrArg String.toList h
  simp only [quoted, String.toList_ofList, List.cons.injEq, true_and] at h
  exact String.toList_injective (quotedChars_inj isShown h).1

/-- A text between quotes is one line. -/
theorem newline_notMem_quoted (isShown : Char → Bool) (text : String) :
    '\n' ∉ (quoted isShown text).toList := by
  have hdigits (c : Char) : '\n' ∉ hexDigits c.toNat := fun h =>
    forall_mem_hexDigits (P := (· ≠ '\n')) (by decide) c.toNat '\n' h rfl
  have hchar (c : Char) : '\n' ∉ quotedChar isShown c := by
    unfold quotedChar
    split
    case h_7 hn _ _ =>
      split
      · simpa using fun h => hn h.symm
      · simpa [unicodeEscape] using hdigits c
    all_goals decide
  simp [quoted, hchar]

end PhpSyntax.Text
