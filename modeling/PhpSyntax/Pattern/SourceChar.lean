import PhpSyntax.Literal.Text

namespace PhpSyntax.Pattern

structure Span where
  start : Nat
  stop : Nat
deriving DecidableEq

structure SourceChar where
  char : Char
  span : Span
deriving DecidableEq

def decodeHead (quote : Literal.Quote) (c : Char) (cs : List Char) : Char × Nat :=
  if c = '\\' then
    match quote with
    | .single =>
      match cs.head? with
      | some '\\' => ('\\', 2)
      | some '\x27' => ('\x27', 2)
      | _ => ('\\', 1)
    | .double =>
      match Literal.escape? cs with
      | some (decoded, n) => (decoded, n + 1)
      | none => ('\\', 1)
  else (c, 1)

def decodeFrom (quote : Literal.Quote) (offset : Nat) (cs : List Char) : List SourceChar :=
  match cs with
  | [] => []
  | c :: cs =>
    let (decoded, n) := decodeHead quote c cs
    ⟨decoded, ⟨offset, offset + n⟩⟩ :: decodeFrom quote (offset + n) (cs.drop (n - 1))
termination_by cs.length
decreasing_by simp +arith

def decode (quote : Literal.Quote) (text : String) : List SourceChar :=
  decodeFrom quote 0 text.toList

def plainChars (text : String) : List SourceChar :=
  text.toList.zipIdx.map fun (c, i) => ⟨c, ⟨i, i + 1⟩⟩

end PhpSyntax.Pattern
