namespace PhpSyntax.Lexer

def isNameStart (c : Char) : Bool :=
  c.isAlpha || c = '_' || 0x80 ≤ c.toNat

def isNameChar (c : Char) : Bool :=
  isNameStart c || c.isDigit

def startsWith (p : Char → Bool) (cs : List Char) : Bool :=
  cs.head?.any p

def runLength (p : Char → Bool) (cs : List Char) : Nat :=
  (cs.takeWhile p).length

/-- How many characters of `cs` continue a qualified name. A backslash belongs to it only where
another segment follows. -/
def nameLength : List Char → Nat
  | [] => 0
  | c :: cs =>
    if isNameChar c || (c = '\\' && startsWith isNameStart cs) then nameLength cs + 1 else 0

end PhpSyntax.Lexer
