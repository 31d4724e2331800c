import Mathlib.Logic.Function.Iterate
import PhpSyntax.Proofs.Grammar.File
import PhpSyntax.Proofs.Grammar.Progress.Statements

namespace PhpSyntax.Grammar

open Production

variable {n : Nat} {r r' : Nested}

/-- The productions one level up, which nest the ones of `r`. -/
def Nested.deepen (r : Nested) : Nested where
  statement := Grammar.statement r
  binary := Grammar.binary r
  unary := Grammar.unary r
  access := Grammar.access r
  dollarVariable := Grammar.dollarVariable r
  typeAtom := Grammar.typeAtom r

theorem Nested.AgreesUpTo.deepen (hr : r.AgreesUpTo n r') :
    r.deepen.AgreesUpTo (n + 1) r'.deepen where
  statement := statement_takes hr
  binary := binary_takes hr
  unary := unary_takes hr
  access := access_takes hr
  dollarVariable := (dollarVariable_opens hr).takes
  typeAtom := typeAtom_takes hr

/-- What stands below some levels is only asked for where that many tokens have been read. -/
theorem Nested.AgreesUpTo.iterate {depth : Nat} (hr : r.AgreesUpTo (n - depth) r') :
    (Nested.deepen^[depth] r).AgreesUpTo n (Nested.deepen^[depth] r') := by
  -- each level of nesting lies behind a token, so both numbers go down together
  induction depth generalizing n with
  | zero => simpa using hr
  | succ depth ih =>
    cases n with
    | zero => exact .zero
    | succ n =>
      rw [Function.iterate_succ_apply', Function.iterate_succ_apply']
      rw [Nat.add_sub_add_right] at hr
      exact (ih hr).deepen

theorem nested_eq_iterate (depth : Nat) : nested depth = Nested.deepen^[depth] (nested 0) := by
  induction depth with
  | zero => rfl
  | succ depth ih =>
    rw [Function.iterate_succ_apply', ← ih]
    rfl

/-- Only as many levels count as there are tokens. -/
theorem iterate_agrees (bottom bottom' : Nested) {depth depth' : Nat} (h : n ≤ depth)
    (h' : n ≤ depth') :
    (Nested.deepen^[depth] bottom).AgreesUpTo n (Nested.deepen^[depth'] bottom') := by
  obtain ⟨k, rfl⟩ := Nat.exists_eq_add_of_le h
  obtain ⟨k', rfl⟩ := Nat.exists_eq_add_of_le h'
  rw [Function.iterate_add_apply, Function.iterate_add_apply]
  refine .iterate ?_
  rw [Nat.sub_self]
  exact .zero

theorem nested_agrees (depth : Nat) : (nested depth).AgreesUpTo n (nested depth) := by
  rw [nested_eq_iterate]
  exact .iterate ⟨fun _ _ => .unexpected, fun _ _ _ => .unexpected, fun _ _ => .unexpected,
    fun _ _ => .unexpected, fun _ _ _ => .unexpected, fun _ _ => .unexpected⟩

/-- The whole file, with the productions inside statements and the rounds of the loop over the
statements left open. -/
def unitWithin (r : Nested) (rounds : Nat) : Production Tree := do
  let statements ← gatherUpTo (!·.atEnd) (do return [some (← r.statement)]) rounds
  return .node .compilationUnit (statements ++ [some (← token)])

theorem unitWithin_keeps (hr : r.AgreesUpTo n r') {rounds rounds' : Nat} (h : n ≤ rounds)
    (h' : n ≤ rounds') : Keeps n (unitWithin r rounds) (unitWithin r' rounds') := by
  refine (treesUpTo_keeps (fun c hc _ => hr.statement hc) h h').bind fun statements => ?_
  exact (leaf_keeps .token).bind fun stop => .pure _

theorem compilationUnit_run (c : Cursor) :
    compilationUnit.run c = (unitWithin (nested c.remaining) c.remaining).run c := by
  have hgather : ∀ p : Production Tree, (gatherTrees (!·.atEnd) p).run c =
      (gatherUpTo (!·.atEnd) (do return [some (← p)]) c.remaining).run c := fun _ => rfl
  simp only [compilationUnit, unitWithin, StateT.run_bind, StateT.run_get, pure_bind, hgather]

theorem compilationUnit_keeps : Keeps n compilationUnit compilationUnit := by
  refine fun c hc => .self fun tree d hrun => ?_
  rw [compilationUnit_run] at hrun
  have hkeeps : Keeps c.remaining (unitWithin (nested c.remaining) c.remaining)
      (unitWithin (nested c.remaining) c.remaining) :=
    unitWithin_keeps (nested_agrees _) (Nat.le_refl _) (Nat.le_refl _)
  exact (hkeeps ⟨hc.ends, Nat.le_refl _⟩).ensures tree d hrun

end PhpSyntax.Grammar
