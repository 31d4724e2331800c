import PhpSyntax.Proofs.Grammar.File
import PhpSyntax.Proofs.Grammar.Shape.Branches
import PhpSyntax.Proofs.Tree.Walk

namespace PhpSyntax

theorem forall_mem_dite {α : Type} {p : Prop} [Decidable p] {f : p → α} {P : α → Prop}
    (h : ∀ hp, P (f hp)) : ∀ v ∈ (if hp : p then some (f hp) else none), P v := by
  intro v hv
  obtain ⟨hp, ⟨⟩⟩ := Option.dite_none_right_eq_some.mp hv
  exact h hp

namespace Grammar

open Production

theorem nested_shapes (depth : Nat) : (nested depth).Shapes := by
  induction depth with
  | zero =>
    exact ⟨.unexpected, fun _ _ => .unexpected, fun _ _ _ => .unexpected, .unexpected, .unexpected, .unexpected,
      .unexpected⟩
  | succ depth ih =>
    exact ⟨statement_gives ih, statement_closes ih, binary_binds ih, unary_gives ih, access_gives ih,
      (dollarVariable_gives ih).imp fun _ h => h.shaped, typeAtom_gives ih⟩

theorem compilationUnit_gives : compilationUnit.Gives Tree.Shaped := by
  refine .get fun c => ?_
  refine (gatherTrees_gives (nested_shapes _).statement).bind fun statements h₁ => ?_
  refine token_gives.bind fun stop h₂ => ?_
  exact .pure (.plain rfl (by simp [h₁.shaped fun _ => id, h₂]))

/-- Every tree inside the tree of a file is as the views and the operators demand it. -/
theorem parse_shaped {ts : List Token} {tree : Tree} (h : parse ts = .ok tree) : tree.Shaped := by
  obtain ⟨c, d, rfl, hc, hrun⟩ := parse_run h
  exact (compilationUnit_gives hc tree d hrun).2

/-- Every view of a tree inside the tree of a file finds what it expects. -/
theorem parse_views {ts : List Token} {tree : Tree} (h : parse ts = .ok tree) :
    ∀ n ∈ tree.descendants,
      (∀ v ∈ FunctionCall.ofTree? n, v.LaidOut) ∧ (∀ v ∈ FunctionExpression.ofTree? n, v.LaidOut) ∧
      (∀ v ∈ ArrowFunction.ofTree? n, v.LaidOut) ∧ (∀ v ∈ BinaryExpression.ofTree? n, v.LaidOut) ∧
      (∀ v ∈ MatchExpression.ofTree? n, v.LaidOut) ∧ (∀ v ∈ ClassLike.ofTree? n, v.LaidOut) ∧
      (∀ v ∈ UseStatement.ofTree? n, v.LaidOut) := by
  rw [Tree.descendants_eq]
  intro n hn
  have hviewed := (parse_shaped h n hn).toViewed
  exact ⟨forall_mem_dite hviewed.call, forall_mem_dite hviewed.closure,
    forall_mem_dite hviewed.arrow, forall_mem_dite hviewed.binary,
    forall_mem_dite hviewed.choice, forall_mem_dite hviewed.classLike,
    forall_mem_dite hviewed.imports⟩

/-- An import of two names from one namespace. -/
theorem parse_views_group :
    let ts : List Token := [⟨.openTag, "<?php", ⟨1, 0⟩, []⟩, ⟨.identifier, "use", ⟨1, 6⟩, []⟩,
      ⟨.identifier, "A", ⟨1, 10⟩, []⟩, ⟨.punctuator, "\\", ⟨1, 11⟩, []⟩,
      ⟨.punctuator, "\x7b", ⟨1, 12⟩, []⟩, ⟨.identifier, "B", ⟨1, 13⟩, []⟩,
      ⟨.punctuator, ",", ⟨1, 14⟩, []⟩, ⟨.identifier, "C", ⟨1, 15⟩, []⟩,
      ⟨.punctuator, "\x7d", ⟨1, 16⟩, []⟩, ⟨.punctuator, ";", ⟨1, 17⟩, []⟩, ⟨.eof, "", ⟨1, 18⟩, []⟩]
    ∃ tree, parse ts = .ok tree ∧
      (∃ n ∈ tree.descendants,
        (UseStatement.ofTree? n).any (·.importedNames = ["A\\B", "A\\C"]) = true) ∧
      ∀ n ∈ tree.descendants, ∀ u ∈ UseStatement.ofTree? n, u.LaidOut := by
  intro ts
  have h : parse ts = .ok _ := rfl
  refine ⟨_, h, ?_, fun n hn => (parse_views h n hn).2.2.2.2.2.2⟩
  rw [Tree.descendants_eq]
  decide +kernel

/-- The operands of every operator in the tree of a file bind as strongly as it demands. -/
theorem parse_grouped {ts : List Token} {tree : Tree} (h : parse ts = .ok tree) :
    ∀ n ∈ tree.descendants, n.Grouped := by
  rw [Tree.descendants_eq]
  exact fun n hn => (parse_shaped h n hn).toGrouped

/-- A difference is assigned whose right operand is a product. -/
theorem parse_grouped_difference :
    let ts : List Token := [⟨.openTag, "<?php", ⟨1, 0⟩, []⟩, ⟨.variableName, "$a", ⟨1, 6⟩, []⟩,
      ⟨.punctuator, "=", ⟨1, 8⟩, []⟩, ⟨.integer, "1", ⟨1, 9⟩, []⟩, ⟨.punctuator, "-", ⟨1, 10⟩, []⟩,
      ⟨.integer, "2", ⟨1, 11⟩, []⟩, ⟨.punctuator, "*", ⟨1, 12⟩, []⟩, ⟨.integer, "3", ⟨1, 13⟩, []⟩,
      ⟨.punctuator, ";", ⟨1, 14⟩, []⟩, ⟨.eof, "", ⟨1, 15⟩, []⟩]
    ∃ tree, parse ts = .ok tree ∧
      (∃ n ∈ tree.descendants, n.kind = .minus ∧ (n.child? 2).map Tree.kind = some .multiply) ∧
      (∃ n ∈ tree.descendants, n.kind = .assignment ∧ (n.child? 2).map Tree.kind = some .minus) ∧
      ∀ n ∈ tree.descendants, n.Grouped := by
  intro ts
  have h : parse ts = .ok _ := rfl
  refine ⟨_, h, ?_, ?_, parse_grouped h⟩
  · rw [Tree.descendants_eq]
    decide
  · rw [Tree.descendants_eq]
    decide

/-- Every branch of a condition in the tree of a file belongs to the last condition that was open
where it stands. -/
theorem parse_branches {ts : List Token} {tree : Tree} (h : parse ts = .ok tree) :
    ∀ n ∈ tree.descendants, n.kind = .ifStatement → n.Branched := by
  rw [Tree.descendants_eq]
  exact fun n hn => (parse_shaped h n hn).branches

/-- Of the two branches that follow the loop, the first belongs to the condition inside it. -/
theorem parse_branches_loop :
    let ts : List Token := [⟨.openTag, "<?php", ⟨1, 0⟩, []⟩, ⟨.identifier, "if", ⟨1, 6⟩, []⟩,
      ⟨.punctuator, "(", ⟨1, 9⟩, []⟩, ⟨.integer, "1", ⟨1, 10⟩, []⟩, ⟨.punctuator, ")", ⟨1, 11⟩, []⟩,
      ⟨.identifier, "while", ⟨1, 13⟩, []⟩, ⟨.punctuator, "(", ⟨1, 19⟩, []⟩,
      ⟨.integer, "2", ⟨1, 20⟩, []⟩, ⟨.punctuator, ")", ⟨1, 21⟩, []⟩, ⟨.identifier, "if", ⟨1, 23⟩, []⟩,
      ⟨.punctuator, "(", ⟨1, 26⟩, []⟩, ⟨.integer, "3", ⟨1, 27⟩, []⟩, ⟨.punctuator, ")", ⟨1, 28⟩, []⟩,
      ⟨.punctuator, ";", ⟨1, 29⟩, []⟩, ⟨.identifier, "else", ⟨1, 31⟩, []⟩,
      ⟨.punctuator, ";", ⟨1, 35⟩, []⟩, ⟨.identifier, "elseif", ⟨1, 37⟩, []⟩,
      ⟨.punctuator, "(", ⟨1, 44⟩, []⟩, ⟨.integer, "4", ⟨1, 45⟩, []⟩, ⟨.punctuator, ")", ⟨1, 46⟩, []⟩,
      ⟨.punctuator, ";", ⟨1, 47⟩, []⟩, ⟨.eof, "", ⟨1, 48⟩, []⟩]
    ∃ tree, parse ts = .ok tree ∧
      (∃ n ∈ tree.descendants, n.kind = .ifStatement ∧ n.elementsAt 3 ≠ []) ∧
      (∃ n ∈ tree.descendants, n.kind = .ifStatement ∧ (n.child? 4).isSome) ∧
      ∀ n ∈ tree.descendants, n.kind = .ifStatement → n.Branched := by
  intro ts
  have h : parse ts = .ok _ := rfl
  refine ⟨_, h, ?_, ?_, parse_branches h⟩
  · rw [Tree.descendants_eq]
    decide
  · rw [Tree.descendants_eq]
    decide

end Grammar

end PhpSyntax
