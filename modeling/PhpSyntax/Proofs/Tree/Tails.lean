import PhpSyntax.View.Call

namespace PhpSyntax

def Kind.hasTail : Kind → Bool
  | .ifStatement | .whileStatement | .forStatement | .foreachStatement | .declareStatement => true
  | _ => false

namespace Tree

def tail? (tree : Tree) : Option Tree :=
  match tree.kind with
  | .ifStatement => (tree.child? 4).bind (·.child? 1)
  | .whileStatement => tree.child? 2
  | .forStatement | .foreachStatement => tree.child? 8
  | .declareStatement => tree.child? 4
  | _ => none

structure IsOpen (tree : Tree) : Prop where
  kind : tree.kind = .ifStatement
  otherwise : tree.child? 4 = none

inductive ReachesOpen : Tree → Prop where
  | here {tree : Tree} (h : tree.IsOpen) : ReachesOpen tree
  | tail {tree last : Tree} (ht : tree.tail? = some last) (h : ReachesOpen last) :
    ReachesOpen tree

/-- The branches of a condition. Where another one follows a branch, no statement that it ends with
is a condition that could have had it. -/
structure Branched (tree : Tree) : Prop where
  body : ∃ body, tree.child? 2 = some body ∧
    (tree.elementsAt 3 ≠ [] ∨ (tree.child? 4).isSome → ¬ body.ReachesOpen)
  elseifs : ∀ front clause back, tree.elementsAt 3 = front ++ clause :: back →
    ∃ body, clause.kind = .elseifClause ∧ clause.child? 2 = some body ∧
      (back ≠ [] ∨ (tree.child? 4).isSome → ¬ body.ReachesOpen)
  otherwise : ∀ clause, tree.child? 4 = some clause →
    clause.kind = .elseClause ∧ (clause.child? 1).isSome

theorem ReachesOpen.hasTail {tree : Tree} (h : tree.ReachesOpen) : tree.kind.hasTail = true := by
  cases h with
  | here h => rw [h.kind]; rfl
  | tail ht _ =>
    unfold tail? at ht
    split at ht
    all_goals first
      | cases ht
      | simp [*, Kind.hasTail]

theorem reachesOpen_of_tail {tree last : Tree} (ht : tree.tail? = some last)
    (ho : ¬ tree.IsOpen) (h : tree.ReachesOpen) : last.ReachesOpen := by
  cases h with
  | here h => exact absurd h ho
  | tail ht' h =>
    obtain rfl : last = _ := Option.some.inj (ht.symm.trans ht')
    exact h

end Tree

end PhpSyntax
