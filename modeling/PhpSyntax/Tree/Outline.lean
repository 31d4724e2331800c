import PhpSyntax.Text.Printable
import PhpSyntax.Text.Quoted
import PhpSyntax.Tree.Basic

namespace PhpSyntax.Tree

def indent (depth : Nat) : String :=
  String.ofList (List.replicate (2 * depth) ' ')

mutual

def linesAt (isShown : Char → Bool) (depth : Nat) : Tree → List String
  | leaf k t => [indent depth ++ k.name ++ " " ++ Text.quoted isShown t.text]
  | node k cs => (indent depth ++ k.name) :: slotLinesAt isShown (depth + 1) cs

def slotLinesAt (isShown : Char → Bool) (depth : Nat) : List (Option Tree) → List String
  | [] => []
  | none :: cs => (indent depth ++ "-") :: slotLinesAt isShown depth cs
  | some t :: cs => t.linesAt isShown depth ++ slotLinesAt isShown depth cs

end

/-- The outline of a tree, each line with its end, where `isShown` tells which characters of the
texts are shown as they are. -/
def outlineWith (isShown : Char → Bool) (tree : Tree) : String :=
  String.join ((tree.linesAt isShown 0).map (· ++ "\n"))

def outlineLines (tree : Tree) : List String :=
  tree.linesAt Text.isPrintable 0

def outline (tree : Tree) : String :=
  tree.outlineWith Text.isPrintable

end PhpSyntax.Tree
