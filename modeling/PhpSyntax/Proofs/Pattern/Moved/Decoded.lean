import PhpSyntax.Proofs.Pattern.Moved.Groups
import PhpSyntax.Proofs.Pattern.SourceChars

namespace PhpSyntax.Pattern

open Reading

/-- The offset where the `i`-th character starts; there is none at the end, which is at `stop`. -/
def startOf (cs : List SourceChar) (stop i : Nat) : Nat :=
  (cs[i]?.map (·.span.start)).getD stop

theorem startOf_cons_succ (c : SourceChar) (cs : List SourceChar) (stop i : Nat) :
    startOf (c :: cs) stop (i + 1) = startOf cs stop i := by
  rw [startOf, List.getElem?_cons_succ, startOf]

@[simp]
theorem startOf_length (cs : List SourceChar) (stop : Nat) : startOf cs stop cs.length = stop := by
  simp [startOf]

namespace Tiled

variable {start stop : Nat} {cs : List SourceChar}

theorem startOf_zero (h : Tiled start cs stop) : startOf cs stop 0 = start := by
  cases cs with
  | nil => exact Eq.symm h
  | cons c cs => exact h.1

theorem span_eq (h : Tiled start cs stop) (i : Nat) (hi : i < cs.length) :
    cs[i].span = ⟨startOf cs stop i, startOf cs stop (i + 1)⟩ := by
  induction cs generalizing start i with
  | nil => exact (Nat.not_lt_zero i hi).elim
  | cons c cs ih =>
    rw [startOf_cons_succ]
    cases i with
    | zero => rw [h.2.2.startOf_zero]; rfl
    | succ i => exact startOf_cons_succ c cs stop i ▸ ih h.2.2 i (Nat.lt_of_succ_lt_succ hi)

theorem startOf_monotone (h : Tiled start cs stop) : Monotone (startOf cs stop) := by
  refine monotone_nat_of_le_succ fun i => ?_
  by_cases hi : i < cs.length
  · have hmem := h.mem cs[i] (List.getElem_mem hi)
    rw [h.span_eq i hi] at hmem
    exact Nat.le_of_lt hmem.2.1
  · simp [startOf, List.getElem?_eq_none (Nat.le_of_not_lt hi),
      List.getElem?_eq_none (Nat.le_succ_of_le (Nat.le_of_not_lt hi))]

/-- The characters are those of their text, each moved to where it was written. -/
theorem eq_move_plainChars (h : Tiled start cs stop) :
    cs = (plainChars (String.ofList (cs.map (·.char)))).map (·.move (startOf cs stop)) := by
  refine List.ext_getElem (by simp [plainChars]) fun i hi _ => ?_
  have hspan := h.span_eq i hi
  simp only [plainChars, String.toList_ofList, List.getElem_map, List.getElem_zipIdx,
    SourceChar.move, Span.move, Nat.zero_add, ← hspan]

end Tiled

theorem zipIdx_tiled (cs : List Char) (start : Nat) :
    Tiled start ((cs.zipIdx start).map fun (c, i) => ⟨c, ⟨i, i + 1⟩⟩) (start + cs.length) := by
  induction cs generalizing start with
  | nil => rfl
  | cons c cs ih =>
    have h := ih (start + 1)
    rw [Nat.add_right_comm, Nat.add_assoc] at h
    exact ⟨rfl, Nat.lt_succ_self start, h⟩

theorem plainChars_tiled (text : String) :
    Tiled 0 (plainChars text) (plainChars text).length := by
  simpa [plainChars] using zipIdx_tiled text.toList 0

variable {cs : List SourceChar} {stop : Nat}

/-- A reader before characters is that before their text, moved to where they were written. -/
theorem Reader.ofChars_eq_move (h : Tiled 0 cs stop) (flags : Flags) :
    Reader.ofChars cs flags =
      (Reader.ofChars (plainChars (String.ofList (cs.map (·.char)))) flags).move
        (startOf cs stop) := by
  have hplain : (plainChars (String.ofList (cs.map (·.char)))).length = cs.length := by
    simp [plainChars]
  have hstop : stop = startOf cs stop
      (stopOf 0 (plainChars (String.ofList (cs.map (·.char))))) := by
    rw [(plainChars_tiled _).stopOf_eq, hplain, startOf_length]
  unfold Reader.ofChars Reader.move
  congr 1
  · exact h.eq_move_plainChars
  · exact h.stopOf_eq.trans hstop
  · exact h.startOf_zero.symm

theorem parseChars_eq_move (h : Tiled 0 cs stop) (flags : Flags) :
    parseChars cs flags =
      (parsePattern (String.ofList (cs.map (·.char))) flags).move (startOf cs stop) := by
  have hread := pattern_carries (f := ⟨startOf cs stop, h.startOf_monotone⟩)
    (r := .ofChars (plainChars (String.ofList (cs.map (·.char)))) flags)
    (plainChars (String.ofList (cs.map (·.char))))
  rw [Carries, OrderHom.coe_mk, ← h.eq_move_plainChars, ← Reader.ofChars_eq_move h] at hread
  have hrun : parseChars cs flags = ⟨(pattern cs (.ofChars cs flags)).1,
      (pattern cs (.ofChars cs flags)).2.errors, flags⟩ := rfl
  rw [hrun, hread]
  rfl

/-- A pattern between quotes is read as the pattern that it stands for. Only, each offset becomes
that of the same character, or of the end, in the text between the quotes. -/
theorem parseChars_decode (quote : Literal.Quote) (text : String) (flags : Flags) :
    parseChars (decode quote text) flags =
      (parsePattern (String.ofList ((decode quote text).map (·.char))) flags).move
        (startOf (decode quote text) text.length) := by
  have h : Tiled 0 (decode quote text) (0 + text.toList.length) := decodeFrom_tiled quote 0 text.toList
  rw [Nat.zero_add, String.length_toList] at h
  exact parseChars_eq_move h flags

end PhpSyntax.Pattern
