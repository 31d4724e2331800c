import Mathlib.Data.List.Induction
import Mathlib.Order.Defs.PartialOrder
import PhpSyntax.Source.Position

namespace PhpSyntax.Position

/-- The position after a text by counting: its line feeds, and the characters after the last. -/
def after (cs : List Char) : Position :=
  ⟨1 + cs.count '\n', (cs.reverse.takeWhile (· ≠ '\n')).length⟩

@[simp]
theorem advance_nil (p : Position) : p.advance [] = p := rfl

@[simp]
theorem advance_cons (p : Position) (c : Char) (cs : List Char) :
    p.advance (c :: cs) = (p.next c).advance cs := rfl

theorem after_concat (cs : List Char) (c : Char) : after (cs ++ [c]) = (after cs).next c := by
  by_cases h : c = '\n'
  · subst c
    simp [after, next, Nat.add_assoc]
  · simp [after, next, h]

theorem advance_start (cs : List Char) : start.advance cs = after cs := by
  induction cs using List.reverseRecOn with
  | nil => rfl
  | append_singleton cs c ih => rw [advance_append, ih, after_concat]; rfl

theorem after_append (cs ds : List Char) : after (cs ++ ds) = (after cs).advance ds := by
  rw [← advance_start, advance_append, advance_start]

theorem advance_line (p : Position) (cs : List Char) :
    (p.advance cs).line = p.line + cs.count '\n' := by
  induction cs generalizing p with
  | nil => rfl
  | cons c cs ih =>
    rw [advance_cons, ih]
    by_cases h : c = '\n'
    · subst c
      simp [next]
      omega
    · simp [next, h]

theorem advance_column (p : Position) (cs : List Char) (h : '\n' ∉ cs) :
    (p.advance cs).column = p.column + cs.length := by
  induction cs generalizing p with
  | nil => rfl
  | cons c cs ih =>
    obtain ⟨hc, hcs⟩ : ¬ c = '\n' ∧ '\n' ∉ cs := by simpa [eq_comm] using h
    rw [advance_cons, ih _ hcs]
    simp [next, hc]
    omega

/-- Reading on never comes back to a position. -/
theorem advance_ne (p : Position) {cs : List Char} (h : cs ≠ []) : p.advance cs ≠ p := by
  intro he
  have hl := advance_line p cs
  rw [he] at hl
  have hn : '\n' ∉ cs := List.count_eq_zero.mp (by omega)
  have hc := advance_column p cs hn
  rw [he] at hc
  have := List.length_pos_iff.mpr h
  omega

instance : PartialOrder Position where
  le p q := p.line < q.line ∨ p.line = q.line ∧ p.column ≤ q.column
  le_refl p := .inr ⟨rfl, Nat.le_refl _⟩
  le_trans p q r h h' := by omega
  le_antisymm p q h h' := by
    obtain ⟨line, column⟩ := p
    obtain ⟨line', column'⟩ := q
    dsimp only at h h'
    rw [mk.injEq]
    omega

theorem le_next (p : Position) (c : Char) : p ≤ p.next c := by
  unfold next
  split
  · exact .inl (Nat.lt_succ_self _)
  · exact .inr ⟨rfl, Nat.le_succ _⟩

/-- Reading on never goes back. -/
theorem le_advance (p : Position) (cs : List Char) : p ≤ p.advance cs := by
  induction cs generalizing p with
  | nil => exact le_refl p
  | cons c cs ih => exact le_trans (p.le_next c) (ih _)

/-- Reading on goes forward. -/
theorem lt_advance (p : Position) {cs : List Char} (h : cs ≠ []) : p < p.advance cs :=
  lt_of_le_of_ne (p.le_advance cs) (p.advance_ne h).symm

end PhpSyntax.Position
