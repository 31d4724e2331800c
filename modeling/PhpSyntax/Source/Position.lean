/-!
Positions in a text. Lines count from one and columns from zero; only a line feed ends a line, and
a column is a number of characters.
-/

namespace PhpSyntax

structure Position where
  line : Nat
  column : Nat
deriving DecidableEq

namespace Position

def start : Position := ⟨1, 0⟩

def next (p : Position) (c : Char) : Position :=
  if c = '\n' then ⟨p.line + 1, 0⟩ else ⟨p.line, p.column + 1⟩

def advance (p : Position) (cs : List Char) : Position :=
  cs.foldl next p

theorem advance_append (p : Position) (cs ds : List Char) :
    p.advance (cs ++ ds) = (p.advance cs).advance ds :=
  List.foldl_append

def describe (p : Position) : String :=
  "at line " ++ toString p.line ++ ", column " ++ toString p.column

end Position

/-- A stretch of a text, from `start` to just before `stop`. -/
structure Location where
  start : Position
  stop : Position
deriving DecidableEq

end PhpSyntax
