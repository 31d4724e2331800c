import PhpSyntax.Literal.Escape

namespace PhpSyntax.Literal

inductive Quote where
  | single
  | double
deriving DecidableEq

namespace Quote

def mark : Quote → Char
  | single => '\x27'
  | double => '\x22'

def ofHead? (cs : List Char) : Option Quote :=
  match cs.head? with
  | some '\x27' => some .single
  | some '\x22' => some .double
  | _ => none

end Quote

/-- The text between single quotes, where a backslash protects only itself and the quote. -/
def unescapeSingle : List Char → List Char
  | '\\' :: '\\' :: cs => '\\' :: unescapeSingle cs
  | '\\' :: '\x27' :: cs => '\x27' :: unescapeSingle cs
  | c :: cs => c :: unescapeSingle cs
  | [] => []

def unescapeDouble (cs : List Char) : List Char :=
  match cs with
  | [] => []
  | c :: cs =>
    match (if c = '\\' then escape? cs else none) with
    | some (decoded, n) => decoded :: unescapeDouble (cs.drop n)
    | none => c :: unescapeDouble cs
termination_by cs.length
decreasing_by all_goals simp +arith

def unescape : Quote → List Char → List Char
  | .single => unescapeSingle
  | .double => unescapeDouble

def textValue? (literal : String) : Option String := do
  let cs := literal.toList
  let quote ← Quote.ofHead? cs
  guard (2 ≤ cs.length && cs.getLast? = some quote.mark)
  return String.ofList (unescape quote cs.tail.dropLast)

end PhpSyntax.Literal
