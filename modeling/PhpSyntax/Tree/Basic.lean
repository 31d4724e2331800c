import PhpSyntax.Token.Layout
import PhpSyntax.Tree.Kind

/-!
Syntax trees. A tree is a leaf with one token or a node with slots; an optional part that does not
occur is an absent slot, so that only lists vary in length.
-/

namespace PhpSyntax

inductive Tree where
  | leaf (kind : Kind) (token : Token)
  | node (kind : Kind) (slots : List (Option Tree))

def filled (slots : List (Option Tree)) : List Tree :=
  slots.filterMap id

@[simp]
theorem filled_nil : filled [] = [] := rfl

@[simp]
theorem filled_absent (cs : List (Option Tree)) : filled (none :: cs) = filled cs := rfl

@[simp]
theorem filled_present (t : Tree) (cs : List (Option Tree)) :
    filled (some t :: cs) = t :: filled cs := rfl

namespace Tree

mutual

def decEq : (a b : Tree) → Decidable (a = b)
  | leaf k t, leaf k' t' => decidable_of_iff (k = k' ∧ t = t') (by simp)
  | node k cs, node k' cs' =>
    have := decEqSlots cs cs'
    decidable_of_iff (k = k' ∧ cs = cs') (by simp)
  | leaf .., node .. => isFalse (by simp)
  | node .., leaf .. => isFalse (by simp)

def decEqSlots : (a b : List (Option Tree)) → Decidable (a = b)
  | [], [] => isTrue rfl
  | none :: cs, none :: ds =>
    have := decEqSlots cs ds
    decidable_of_iff (cs = ds) (by simp)
  | some a :: cs, some b :: ds =>
    have := decEq a b
    have := decEqSlots cs ds
    decidable_of_iff (a = b ∧ cs = ds) (by simp)
  | [], _ :: _ => isFalse (by simp)
  | _ :: _, [] => isFalse (by simp)
  | none :: _, some _ :: _ => isFalse (by simp)
  | some _ :: _, none :: _ => isFalse (by simp)

end

instance : DecidableEq Tree := decEq

def leaf? (kind : Kind) (token : Token) : Option Tree :=
  if kind.isLeaf then some (leaf kind token) else none

def node? (kind : Kind) (slots : List (Option Tree)) : Option Tree :=
  if !kind.isLeaf && kind.arity?.all (· = slots.length) then some (node kind slots) else none

def kind : Tree → Kind
  | leaf k _ => k
  | node k _ => k

def isLeaf : Tree → Bool
  | leaf .. => true
  | node .. => false

def token? : Tree → Option Token
  | leaf _ t => some t
  | node .. => none

def text? (tree : Tree) : Option String :=
  tree.token?.map (·.text)

def slots : Tree → List (Option Tree)
  | leaf .. => []
  | node _ cs => cs

def child? (tree : Tree) (i : Nat) : Option Tree :=
  (tree.slots[i]?).join

def evenItems {α : Type} : List α → List α
  | [] => []
  | [a] => [a]
  | a :: _ :: rest => a :: evenItems rest

/-- The elements of a list without separators and absent slots; of other nodes the filled slots. -/
def elements (tree : Tree) : List Tree :=
  filled (if tree.kind.isSeparated then evenItems tree.slots else tree.slots)

def skipParentheses : Tree → Tree
  | node .parenthesisedExpression (_ :: some inner :: _) => inner.skipParentheses
  | tree => tree

end Tree

end PhpSyntax
