import PhpSyntax.Token.Basic

namespace PhpSyntax.Token

def length (t : Token) : Nat := t.text.toList.length

def stop (t : Token) : Position := t.start.advance t.text.toList

def location (t : Token) : Location := ⟨t.start, t.stop⟩

def locationTo (t last : Token) : Location := ⟨t.start, last.stop⟩

/-- Whether all tokens start on the line of the first; of no tokens the question has no answer. -/
def onSameLine? : List Token → Option Bool
  | [] => none
  | first :: rest => some (rest.all fun t => t.start.line = first.start.line)

/-- The number of columns from the end of `a` to the start of `b`, both taken to lie on one line;
negative where they overlap. -/
def spacing (a b : Token) : Int :=
  b.start.column - (a.start.column + a.length)

end PhpSyntax.Token
