import PhpSyntax.Proofs.Text.Quoted
import PhpSyntax.Text.Alphabetic
import PhpSyntax.Text.CaseMapping

namespace PhpSyntax.Text

theorem toNat_of_charOf {code : Nat} {c : Char} (h : charOf? code = some c) : c.toNat = code := by
  unfold charOf? at h
  split at h
  · next hvalid =>
    cases h
    rw [Char.ofNat, dif_pos hvalid]
    rfl
  · cases h

theorem charOf_ascii {code : Nat} (h : code < 0x80) : charOf? code = some (Char.ofNat code) :=
  if_pos (.inl (by omega))

/-- Where only the first run can cover a code point, it alone decides. -/
theorem mapped_cons_of_lt {run : CaseRun} {others : List CaseRun} {n : Nat}
    (h : ∀ other ∈ others, n < other.first) : mapped (run :: others) n =
      if run.covers n then (Int.ofNat n + run.shift).toNat else n := by
  have hnone : others.find? (·.covers n) = none := by
    refine List.find?_eq_none.mpr fun other hother => ?_
    have := h other hother
    simp [CaseRun.covers]
    omega
  cases hc : run.covers n <;> simp [mapped, hc, hnone]

/-- The small letter of a capital comes 32 code points after it. -/
theorem toNat_lowerChar {c : Char} (h : c.toNat < 0x80) : (lowerChar c).toNat =
    if 0x41 ≤ c.toNat ∧ c.toNat ≤ 0x5A then c.toNat + 0x20 else c.toNat := by
  have hothers : ∀ run ∈ lowerRuns.tail, 0x80 ≤ run.first := by decide +kernel
  have hmapped : mapped lowerRuns c.toNat =
      if 0x41 ≤ c.toNat ∧ c.toNat ≤ 0x5A then c.toNat + 0x20 else c.toNat := by
    refine (mapped_cons_of_lt fun run hrun => Nat.lt_of_lt_of_le h (hothers run hrun)).trans ?_
    refine if_congr ?_ rfl rfl
    simp [CaseRun.covers, Nat.mod_one]
  rw [lowerChar, hmapped]
  refine toNat_of_charOf (charOf_ascii ?_)
  split <;> omega

/-- The capital of a small letter comes 32 code points before it. -/
theorem toNat_upperChar {c : Char} (h : c.toNat < 0x80) : (upperChar c).toNat =
    if 0x61 ≤ c.toNat ∧ c.toNat ≤ 0x7A then c.toNat - 0x20 else c.toNat := by
  have hothers : ∀ run ∈ upperRuns.tail, 0x80 ≤ run.first := by decide +kernel
  have hmapped : mapped upperRuns c.toNat =
      if 0x61 ≤ c.toNat ∧ c.toNat ≤ 0x7A then c.toNat - 0x20 else c.toNat := by
    refine (mapped_cons_of_lt fun run hrun => Nat.lt_of_lt_of_le h (hothers run hrun)).trans ?_
    refine if_congr ?_ ?_ rfl
    · simp [CaseRun.covers, Nat.mod_one]
    · change ((c.toNat : Int) + -32).toNat = _
      omega
  rw [upperChar, hmapped]
  refine toNat_of_charOf (charOf_ascii ?_)
  split <;> omega

theorem isAlphabetic_ascii {c : Char} (h : c.toNat < 0x80) : isAlphabetic c =
    ((0x41 ≤ c.toNat && c.toNat ≤ 0x5A) || (0x61 ≤ c.toNat && c.toNat ≤ 0x7A)) := by
  have hranges : alphabeticRanges =
      (0x41, 0x5A) :: (0x61, 0x7A) :: (0xAA, 0xAA) :: alphabeticRanges.drop 3 := rfl
  rw [isAlphabetic, hranges, Bool.eq_iff_iff]
  simp only [inRanges, if_pos (show c.toNat < 0xAA by omega)]
  split
  · simp; omega
  · split <;> simp <;> omega

end PhpSyntax.Text
