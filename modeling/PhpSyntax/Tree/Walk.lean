import PhpSyntax.Tree.Basic

/-!
The trees and tokens inside a tree. The recursive definitions follow the structure of the tree; a
`Walk` goes step by step and keeps the trees that are still to be visited on a stack.
-/

namespace PhpSyntax.Tree

mutual

def size : Tree → Nat
  | leaf .. => 1
  | node _ cs => slotsSize cs + 1

def slotsSize : List (Option Tree) → Nat
  | [] => 0
  | none :: cs => slotsSize cs
  | some t :: cs => t.size + slotsSize cs

end

mutual

def preorder : Tree → List Tree
  | leaf k t => [leaf k t]
  | node k cs => node k cs :: slotsPreorder cs

def slotsPreorder : List (Option Tree) → List Tree
  | [] => []
  | none :: cs => slotsPreorder cs
  | some t :: cs => t.preorder ++ slotsPreorder cs

end

mutual

def tokens : Tree → List Token
  | leaf _ t => [t]
  | node _ cs => slotsTokens cs

def slotsTokens : List (Option Tree) → List Token
  | [] => []
  | none :: cs => slotsTokens cs
  | some t :: cs => t.tokens ++ slotsTokens cs

end

mutual

def firstToken? : Tree → Option Token
  | leaf _ t => some t
  | node _ cs => slotsFirstToken? cs

def slotsFirstToken? : List (Option Tree) → Option Token
  | [] => none
  | none :: cs => slotsFirstToken? cs
  | some t :: cs => t.firstToken?.or (slotsFirstToken? cs)

end

mutual

def lastToken? : Tree → Option Token
  | leaf _ t => some t
  | node _ cs => slotsLastToken? cs

def slotsLastToken? : List (Option Tree) → Option Token
  | [] => none
  | none :: cs => slotsLastToken? cs
  | some t :: cs => (slotsLastToken? cs).or t.lastToken?

end

def location? (tree : Tree) : Option Location := do
  return (← tree.firstToken?).locationTo (← tree.lastToken?)

/-- The stack, whose head is its top, after trees are put on it one after the other. -/
def push (stack trees : List Tree) : List Tree :=
  trees.foldl (fun stack tree => tree :: stack) stack

def pushSlots (stack : List Tree) (tree : Tree) : List Tree :=
  push stack (filled tree.slots.reverse)

/-- What is put on from the last to the first comes off from the first to the last. -/
theorem pushSlots_eq (stack : List Tree) (tree : Tree) :
    pushSlots stack tree = filled tree.slots ++ stack := by
  rw [pushSlots, push, filled, List.filterMap_reverse, List.foldl_flip_cons_eq_append',
    List.reverse_reverse, filled]

def stackSize : List Tree → Nat
  | [] => 0
  | tree :: stack => tree.size + stackSize stack

theorem stackSize_append (trees stack : List Tree) :
    stackSize (trees ++ stack) = stackSize trees + stackSize stack := by
  induction trees with
  | nil => exact (Nat.zero_add _).symm
  | cons tree trees ih => rw [List.cons_append, stackSize, ih, stackSize, Nat.add_assoc]

theorem slotsSize_eq (cs : List (Option Tree)) : slotsSize cs = stackSize (filled cs) := by
  induction cs with
  | nil => rfl
  | cons c cs ih =>
    cases c with
    | none => exact ih
    | some t => rw [slotsSize, ih, filled_present, stackSize]

theorem size_eq (tree : Tree) : tree.size = stackSize (filled tree.slots) + 1 := by
  cases tree with
  | leaf k t => rfl
  | node k cs => rw [size, slotsSize_eq, slots]

/-- A stack gets smaller when the trees in the slots of its top take the place of the top. -/
theorem stackSize_pushSlots (stack : List Tree) (tree : Tree) :
    stackSize (pushSlots stack tree) < stackSize (tree :: stack) := by
  rw [pushSlots_eq, stackSize_append, stackSize, size_eq]
  omega

/-- The tree on top of the stack, and the stack with the trees in its slots in its place. -/
def nextTree? : List Tree → Option (Tree × List Tree)
  | [] => none
  | tree :: stack => some (tree, pushSlots stack tree)

/-- The token of the first leaf, and the stack under the leaf. The trees in the slots of the nodes
above the leaf take the places of the nodes. -/
def nextToken? : List Tree → Option (Token × List Tree)
  | [] => none
  | leaf _ t :: stack => some (t, stack)
  | node k cs :: stack => nextToken? (pushSlots stack (node k cs))
termination_by stack => stackSize stack
decreasing_by exact stackSize_pushSlots stack (node k cs)

theorem nextTree_shrinks {stack rest : List Tree} {tree : Tree}
    (h : nextTree? stack = some (tree, rest)) : stackSize rest < stackSize stack := by
  cases stack with
  | nil => cases h
  | cons top stack =>
    obtain ⟨rfl, rfl⟩ := Prod.mk.inj (Option.some.inj h)
    exact stackSize_pushSlots stack top

theorem nextToken_shrinks {stack rest : List Tree} {t : Token}
    (h : nextToken? stack = some (t, rest)) : stackSize rest < stackSize stack := by
  induction stack using nextToken?.induct with
  | case1 => simp [nextToken?] at h
  | case2 k u stack =>
    obtain ⟨-, rfl⟩ : u = t ∧ stack = rest := by simpa [nextToken?] using h
    simp [stackSize, size]
  | case3 k cs stack ih =>
    rw [nextToken?] at h
    exact Nat.lt_trans (ih h) (stackSize_pushSlots stack (node k cs))

/-- A way to go through the trees on a stack: a step gives an item and leaves less to visit. -/
structure Walk (α : Type) where
  next? : List Tree → Option (α × List Tree)
  shrinks : ∀ {stack item rest}, next? stack = some (item, rest) →
    stackSize rest < stackSize stack

def Walk.items {α : Type} (walk : Walk α) (stack : List Tree) : List α :=
  match _ : walk.next? stack with
  | none => []
  | some (item, rest) => item :: walk.items rest
termination_by stackSize stack
decreasing_by exact walk.shrinks ‹_›

def treeWalk : Walk Tree :=
  ⟨nextTree?, nextTree_shrinks⟩

def tokenWalk : Walk Token :=
  ⟨nextToken?, nextToken_shrinks⟩

def descendants (tree : Tree) : List Tree :=
  treeWalk.items [tree]

def leafTokens (tree : Tree) : List Token :=
  tokenWalk.items [tree]

end PhpSyntax.Tree
