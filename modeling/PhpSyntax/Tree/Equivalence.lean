import PhpSyntax.Tree.Basic

namespace PhpSyntax.Tree

mutual

def equivalent : Tree → Tree → Bool
  | leaf k t, leaf k' t' => k = k' && t.text = t'.text
  | node k cs, node k' cs' => k = k' && equivalentSlots cs cs'
  | _, _ => false

def equivalentSlots : List (Option Tree) → List (Option Tree) → Bool
  | [], [] => true
  | none :: cs, none :: ds => equivalentSlots cs ds
  | some a :: cs, some b :: ds => equivalent a b && equivalentSlots cs ds
  | _, _ => false

end

def equivalentSlot : Option Tree → Option Tree → Bool
  | none, none => true
  | some a, some b => equivalent a b
  | _, _ => false

end PhpSyntax.Tree
