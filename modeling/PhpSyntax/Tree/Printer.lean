import PhpSyntax.Tree.Walk

namespace PhpSyntax

def Token.pieces (t : Token) : List (String × Position) :=
  t.trivia.map (fun c => (c.text, c.start)) ++ [(t.text, t.start)]

namespace Tree

/-- The line ends and spaces that lead from one position to another. Nothing leads backwards. -/
def gap (source target : Position) : List Char :=
  if source.line < target.line then
    List.replicate (target.line - source.line) '\n' ++ List.replicate target.column ' '
  else List.replicate (target.column - source.column) ' '

def layOut (pos : Position) : List (String × Position) → List Char
  | [] => []
  | (text, start) :: rest =>
    gap pos start ++ text.toList ++ layOut (start.advance text.toList) rest

def toSource (tree : Tree) : String :=
  String.ofList (layOut .start (tree.leafTokens.flatMap Token.pieces))

end Tree

end PhpSyntax
