import PhpSyntax.Literal.Integer
import PhpSyntax.Proofs.Lexer.SelfDelimiting
import PhpSyntax.Proofs.Text.Digits

/-!
The values of integer literals. The lexer takes digits, separators and the letter of a base, so
that no sign stands in a literal, and its value is the one that its digits have in the base that
its first characters announce.
-/

namespace PhpSyntax

namespace Literal

/-- The base that a literal without separators announces, and its digits. Capitals announce what
small letters do, and a zero in front of anything else announces the base eight. -/
def announced : List Char → Nat × List Char
  | '0' :: 'x' :: digits | '0' :: 'X' :: digits => (16, digits)
  | '0' :: 'b' :: digits | '0' :: 'B' :: digits => (2, digits)
  | '0' :: 'o' :: digits | '0' :: 'O' :: digits => (8, digits)
  | '0' :: c :: digits => (8, c :: digits)
  | digits => (10, digits)

theorem announced_suffix (cs : List Char) : (announced cs).2 <:+ cs := by
  fun_cases announced cs
  case case7 c digits => exact List.suffix_cons _ _
  case case8 => exact List.suffix_rfl
  all_goals exact ⟨['0', _], rfl⟩

/-- Of a letter only the capital has the same small letter. -/
theorem eq_or_eq_toUpper {c l : Char} (h : c.toLower = l) : c = l ∨ c = l.toUpper := by
  subst l
  by_cases hc : c.toNat < 0x80
  · exact Text.forall_ascii (fun c => c = c.toLower ∨ c = c.toLower.toUpper) (by decide +kernel) hc
  · exact .inl (Text.toLower_of_not_ascii hc).symm

theorem splitBase_map_toLower (cs : List Char) :
    splitBase (cs.map Char.toLower) = (announced cs).map id (List.map Char.toLower) := by
  fun_cases announced cs
  case case7 c digits hx hX hb hB ho hO =>
    exact splitBase.eq_4 _ _ (fun h => (eq_or_eq_toUpper h).elim hx hX)
      (fun h => (eq_or_eq_toUpper h).elim hb hB) (fun h => (eq_or_eq_toUpper h).elim ho hO)
  case case8 hzero =>
    have hother : ∀ c digits, cs.map Char.toLower ≠ '0' :: c :: digits := by
      intro c digits h
      obtain ⟨a, _, rfl, ha, h⟩ := List.map_eq_cons_iff.mp h
      obtain ⟨b, rest, rfl, -, -⟩ := List.map_eq_cons_iff.mp h
      obtain rfl : a = '0' := (eq_or_eq_toUpper ha).elim id id
      exact hzero b rest rfl
    exact splitBase.eq_5 _ (hother _) (hother _) (hother _) hother
  all_goals rfl

theorem signedNumber_eq {base : Nat} {digits : List Char} (h : '+' ∉ digits) (h' : '-' ∉ digits) :
    signedNumber? base digits = (Text.numberOf? base digits).map Int.ofNat := by
  unfold signedNumber?
  split
  · exact absurd List.mem_cons_self h
  · exact absurd List.mem_cons_self h'
  · rfl

def withoutSeparators (literal : String) : List Char :=
  literal.toList.filter (· ≠ '_')

def HasValue (literal : String) (value : Nat) : Prop :=
  let (base, digits) := announced (withoutSeparators literal)
  Text.Writes base digits value

theorem not_mem_announced {sign : Char} (hs : sign.toUpper = sign) {literal : String}
    (h : sign ∉ literal.toList) :
    sign ∉ (announced (withoutSeparators literal)).2.map Char.toLower := by
  rw [List.mem_map]
  rintro ⟨c, hc, hlower⟩
  have hmem : c ∈ literal.toList := (List.mem_filter.mp ((announced_suffix _).mem hc)).1
  obtain rfl | rfl := eq_or_eq_toUpper hlower
  · exact h hmem
  · exact h (hs ▸ hmem)

/-- The value of a literal without a sign. -/
theorem integerValue_eq {literal : String} (h : '+' ∉ literal.toList) (h' : '-' ∉ literal.toList) :
    integerValue? literal = do
      let n ← Text.numberOf? (announced (withoutSeparators literal)).1
        (announced (withoutSeparators literal)).2
      guard (-0x8000000000000000 ≤ (n : Int) && (n : Int) < 0x8000000000000000)
      return (n : Int) := by
  have hsplit : splitBase ((literal.toList.filter (· ≠ '_')).map Char.toLower) = _ :=
    splitBase_map_toLower (withoutSeparators literal)
  rw [integerValue?, hsplit]
  dsimp only [Prod.map, id]
  rw [signedNumber_eq (not_mem_announced rfl h) (not_mem_announced rfl h'),
    Text.numberOf_map_toLower, Option.bind_eq_bind, Option.bind_map]
  rfl

theorem integerValue_eq_some_iff {literal : String} (h : '+' ∉ literal.toList)
    (h' : '-' ∉ literal.toList) {v : Int} :
    integerValue? literal = some v ↔ ∃ n : Nat, v = n ∧ HasValue literal n ∧ n ≤ 2 ^ 63 - 1 := by
  have hfits (n : Nat) : ((-0x8000000000000000 ≤ (n : Int) && (n : Int) < 0x8000000000000000) =
      true) ↔ n ≤ 2 ^ 63 - 1 := by
    rw [Bool.and_eq_true, decide_eq_true_iff, decide_eq_true_iff]
    omega
  have hguard {p : Prop} [Decidable p] (n : Int) :
      (do guard p; return n : Option Int) = some v ↔ p ∧ n = v := by
    by_cases hp : p <;> simp [hp]
  rw [integerValue_eq h h', Option.bind_eq_bind, Option.bind_eq_some_iff]
  simp only [hguard, hfits, Text.numberOf_eq_some_iff]
  constructor
  · rintro ⟨n, hn, hle, rfl⟩
    exact ⟨n, rfl, hn, hle⟩
  · rintro ⟨n, rfl, hn, hle⟩
    exact ⟨n, hn, hle, rfl⟩

end Literal

namespace Lexer

/-- An integer in the base ten is one run of digits. -/
theorem decimalLength_integer {c : Char} {cs : List Char}
    (h : (decimalLength c cs).1 = .integer) :
    c ≠ '.' ∧ (decimalLength c cs).2 = digitsLength Char.isDigit cs := by
  simp only [decimalLength] at h ⊢
  generalize (if c = '.' then 0 else fractionLength _) = fraction at *
  generalize exponentLength _ = exponent at *
  split at h
  · cases h
  · next hfloat =>
    simp only [Bool.or_eq_true, decide_eq_true_eq, not_or, Nat.not_lt, Nat.le_zero] at hfloat
    obtain ⟨⟨hpoint, rfl⟩, rfl⟩ := hfloat
    exact ⟨hpoint, rfl⟩

section Number

variable {c sign : Char} {cs : List Char} (hs : sign = '+' ∨ sign = '-')

include hs

theorem not_mem_take_digitsLength {isDigit : Char → Bool} (h : isDigit sign = false) :
    sign ∉ cs.take (digitsLength isDigit cs) := by
  rw [digitsLength, runLength, ← List.prefix_iff_eq_take.mp (List.takeWhile_prefix _)]
  intro hmem
  have hdigit := List.mem_takeWhile_imp hmem
  obtain rfl | rfl := hs <;> simp [h] at hdigit

theorem radixDigits_unsigned {letter : Char} {isDigit : Char → Bool}
    (h : radixDigits? letter = some isDigit) : letter ≠ sign ∧ isDigit sign = false := by
  unfold radixDigits? at h
  split at h <;> cases h <;> obtain rfl | rfl := hs <;> decide

theorem numberLength_unsigned (hc : c.isDigit = true ∨ c = '.')
    (h : (numberLength c cs).1 = .integer) : sign ∉ c :: cs.take (numberLength c cs).2 := by
  unfold numberLength at h ⊢
  split at h
  · next isDigit hradix =>
    split at hradix
    · next hzero =>
      obtain ⟨letter, hhead, hradix⟩ := Option.bind_eq_some_iff.mp hradix
      obtain ⟨rest, rfl⟩ := List.head?_eq_some_iff.mp hhead
      obtain ⟨hletter, hdigit⟩ := radixDigits_unsigned hs hradix
      have hrun : sign ∉ rest.take (digitsLength isDigit rest) :=
        not_mem_take_digitsLength hs hdigit
      rw [Nat.add_comm]
      obtain rfl | rfl := hs <;> simpa [hzero, hletter.symm] using hrun
    · cases hradix
  · obtain ⟨hpoint, hlength⟩ := decimalLength_integer h
    have hdigit : sign.isDigit = false := by obtain rfl | rfl := hs <;> rfl
    have hfirst : c ≠ sign := by
      rintro rfl
      exact Bool.false_ne_true (hdigit.symm.trans (hc.resolve_right hpoint))
    rw [hlength, List.mem_cons, not_or]
    exact ⟨hfirst.symm, not_mem_take_digitsLength hs hdigit⟩

end Number

/-- The lexer takes no sign into an integer. -/
theorem integer_unsigned {options : LexerOptions} {source : String} {t : Token}
    (ht : t ∈ (tokenizeWith options source).tokens) (hkind : t.kind = .integer) {sign : Char}
    (hs : sign = '+' ∨ sign = '-') : sign ∉ t.text.toList := by
  obtain ⟨-, c, cs, -, -, hpiece, htext, -⟩ := tokenizeWith_reads ht (by rw [hkind]; rfl)
  rw [htext]
  rw [hkind] at hpiece
  have hcases := readCode_cases c cs
  generalize readCode c cs = r at hpiece hcases ⊢
  cases hcases with
  | number hc => exact numberLength_unsigned hs hc (Piece.token.inj hpiece)
  | blank | closeTag | lineComment | blockComment | variableName | name | cast => cases hpiece
  | singleQuoted | doubleQuoted | shellCommand | heredoc =>
    have hkind := Piece.token.inj hpiece
    split at hkind <;> cases hkind
  | punctuator =>
    unfold readPunctuator at hpiece
    split at hpiece <;> cases hpiece

/-- An integer has the value that its digits have in the base that it announces, if there are
digits, all of them are below the base, and 64 bits with a sign hold the value. -/
theorem tokenizeWith_integerValue {options : LexerOptions} {source : String} {t : Token}
    (ht : t ∈ (tokenizeWith options source).tokens) (hkind : t.kind = .integer) {v : Int} :
    Literal.integerValue? t.text = some v ↔
      ∃ n : Nat, v = n ∧ Literal.HasValue t.text n ∧ n ≤ 2 ^ 63 - 1 :=
  Literal.integerValue_eq_some_iff (integer_unsigned ht hkind (.inl rfl))
    (integer_unsigned ht hkind (.inr rfl))

/-- The largest value, with separators and digits in both cases. -/
theorem tokenize_integerValue_largest :
    ∃ t ∈ (tokenize "<?php 0X_7fff_FFFF_ffffFFFF_;").tokens, t.kind = .integer ∧
      Literal.integerValue? t.text = some (2 ^ 63 - 1) ∧
      ∃ n : Nat, (2 ^ 63 - 1 : Int) = n ∧ Literal.HasValue t.text n ∧ n ≤ 2 ^ 63 - 1 := by
  have ht : (⟨.integer, "0X_7fff_FFFF_ffffFFFF_", ⟨1, 6⟩, []⟩ : Token) ∈
      (tokenize "<?php 0X_7fff_FFFF_ffffFFFF_;").tokens := by decide +kernel
  have hvalue : Literal.integerValue? "0X_7fff_FFFF_ffffFFFF_" = some (2 ^ 63 - 1) := by
    decide +kernel
  exact ⟨_, ht, rfl, hvalue, (tokenizeWith_integerValue ht rfl).mp hvalue⟩

end Lexer

end PhpSyntax
