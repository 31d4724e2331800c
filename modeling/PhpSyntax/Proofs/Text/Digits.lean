import Mathlib.Data.Nat.Digits.Defs
import PhpSyntax.Text.Digits

namespace PhpSyntax.Text

/-- The character stands for the digit `d`, one of sixteen, in small letters or in capitals. -/
def IsDigit (c : Char) (d : Nat) : Prop :=
  d < 16 ∧ (c = d.digitChar ∨ c = d.digitChar.toUpper)

instance (c : Char) (d : Nat) : Decidable (IsDigit c d) :=
  inferInstanceAs (Decidable (_ ∧ _))

/-- There are digits, each of them is below the base, and this is their positional value. -/
def Writes (base : Nat) (digits : List Char) (value : Nat) : Prop :=
  digits ≠ [] ∧ ∃ ds, List.Forall₂ (fun c d => d < base ∧ IsDigit c d) digits ds ∧
    value = Nat.ofDigits base ds.reverse

/-- What holds of the first 128 characters holds of all of ASCII. -/
theorem forall_ascii (P : Char → Prop) (h : ∀ n < 0x80, P (Char.ofNat n)) {c : Char}
    (hc : c.toNat < 0x80) : P c :=
  Char.ofNat_toNat c ▸ h c.toNat hc

theorem toLower_of_not_ascii {c : Char} (h : ¬ c.toNat < 0x80) : c.toLower = c := by
  refine dif_neg fun hupper => h ?_
  have hle : c.toNat ≤ 'Z'.toNat := UInt32.le_iff_toNat_le.mp hupper.2
  exact Nat.lt_of_le_of_lt hle (by decide)

/-- Only characters of ASCII are digits. -/
theorem toNat_of_digitValue {c : Char} {d : Nat} (h : digitValue? c = some d) :
    c.toNat < 0x80 := by
  have hle {last : Char} (hlast : last.toNat < 0x80) (hc : c ≤ last) : c.toNat < 0x80 :=
    Nat.lt_of_le_of_lt (UInt32.le_iff_toNat_le.mp hc) hlast
  simp only [digitValue?, Bool.and_eq_true, decide_eq_true_eq] at h
  split at h
  · next hc => exact hle (by decide) hc.2
  split at h
  · next hc => exact hle (by decide) hc.2
  split at h
  · next hc => exact hle (by decide) hc.2
  · cases h

theorem digitValue_eq_some_iff {c : Char} {d : Nat} : digitValue? c = some d ↔ IsDigit c d := by
  constructor
  · intro h
    exact forall_ascii (fun c => ∀ d ∈ digitValue? c, IsDigit c d) (by decide +kernel)
      (toNat_of_digitValue h) d h
  · rintro ⟨hd, rfl | rfl⟩
    · have hall : ∀ d < 16, digitValue? d.digitChar = some d := by decide
      exact hall d hd
    · have hall : ∀ d < 16, digitValue? d.digitChar.toUpper = some d := by decide
      exact hall d hd

theorem digitValue_toLower (c : Char) : digitValue? c.toLower = digitValue? c := by
  by_cases hc : c.toNat < 0x80
  · exact forall_ascii (fun c => digitValue? c.toLower = digitValue? c) (by decide +kernel) hc
  · rw [toLower_of_not_ascii hc]

theorem digitBelow_eq_some_iff {base : Nat} {c : Char} {d : Nat} :
    digitBelow? base c = some d ↔ d < base ∧ IsDigit c d := by
  rw [digitBelow?, Option.filter_eq_some_iff, digitValue_eq_some_iff, and_comm, decide_eq_true_iff]

theorem appendDigits_map_toLower (base high : Nat) (digits : List Char) :
    appendDigits? base high (digits.map Char.toLower) = appendDigits? base high digits := by
  induction digits generalizing high with
  | nil => rfl
  | cons c digits ih =>
    simp only [List.map_cons, appendDigits?, digitBelow?, digitValue_toLower, ih]

theorem numberOf_map_toLower (base : Nat) (digits : List Char) :
    numberOf? base (digits.map Char.toLower) = numberOf? base digits := by
  rw [numberOf?, numberOf?, appendDigits_map_toLower, List.isEmpty_map]

/-- The number so far moves up by one place for each digit. -/
theorem appendDigits_eq_some_iff {base high value : Nat} {digits : List Char} :
    appendDigits? base high digits = some value ↔
      ∃ ds, List.Forall₂ (fun c d => d < base ∧ IsDigit c d) digits ds ∧
        value = high * base ^ ds.length + Nat.ofDigits base ds.reverse := by
  induction digits generalizing high with
  | nil =>
    constructor
    · rintro ⟨⟩
      exact ⟨[], .nil, by simp⟩
    · rintro ⟨_, ⟨⟩, rfl⟩
      simp [appendDigits?]
  | cons c digits ih =>
    have hstep : ∀ (d : Nat) (ds : List Nat), (high * base + d) * base ^ ds.length +
        Nat.ofDigits base ds.reverse =
        high * base ^ (d :: ds).length + Nat.ofDigits base (d :: ds).reverse := by
      intro d ds
      rw [Nat.ofDigits_reverse_cons, List.length_cons, Nat.pow_succ']
      ring
    rw [appendDigits?, Option.bind_eq_bind, Option.bind_eq_some_iff]
    simp only [ih, digitBelow_eq_some_iff]
    constructor
    · rintro ⟨d, hd, ds, hds, rfl⟩
      exact ⟨d :: ds, .cons hd hds, hstep d ds⟩
    · rintro ⟨_, hds, rfl⟩
      cases hds with
      | cons hd hds => exact ⟨_, hd, _, hds, (hstep _ _).symm⟩

theorem numberOf_eq_some_iff {base value : Nat} {digits : List Char} :
    numberOf? base digits = some value ↔ Writes base digits value := by
  cases digits with
  | nil => simp [numberOf?, Writes]
  | cons c digits =>
    rw [numberOf?, if_neg (by simp), appendDigits_eq_some_iff, Writes]
    simp

end PhpSyntax.Text
