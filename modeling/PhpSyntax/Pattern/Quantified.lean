import PhpSyntax.Pattern.Escape

namespace PhpSyntax.Pattern

open Reading

def leadingNumber? (cs : List Char) : Option (Nat × List Char) :=
  let digits := cs.takeWhile Char.isDigit
  if digits.isEmpty then none else some (cappedNumber 10 digits, cs.drop digits.length)

/-- Bounds of a repetition after their opening brace: the least and the largest number, and how
many characters write them. Nothing else may stand in the braces. -/
def bounds? (cs : List Char) : Option (Nat × Option Nat × Nat) := do
  let (min, afterMin) ← leadingNumber? cs
  match afterMin with
  | '\x7d' :: rest => return (min, some min, cs.length - rest.length)
  | ',' :: '\x7d' :: rest => return (min, none, cs.length - rest.length)
  | ',' :: digits =>
    let (max, afterMax) ← leadingNumber? digits
    match afterMax with
    | '\x7d' :: rest => return (min, some max, cs.length - rest.length)
    | _ => none
  | _ => none

def Reader.bounds? (r : Reader) : Option (Nat × Option Nat × Nat) := do
  guard (r.sees '\x7b')
  let (min, max, n) ← Pattern.bounds? (r.rest.tail.map (·.char))
  return (min, max, n + 1)

def bounds : Reading (Option (Nat × Option Nat)) := do
  let r ← get
  match r.bounds? with
  | none => return none
  | some (min, max, n) =>
    skip n
    if max.any (· < min) then reportFrom .illegalRepetition r.offset
    return some (min, max)

def repetitionBounds : Reading (Option (Nat × Option Nat)) := do
  match (← get).head? with
  | some '*' =>
    skip 1
    return some (0, none)
  | some '+' =>
    skip 1
    return some (1, none)
  | some '?' =>
    skip 1
    return some (0, some 1)
  | _ => bounds

def greediness : Reading Greediness := do
  if ← eat '?' then return .lazy
  else if ← eat '+' then return .possessive
  else return .greedy

def quantifier? : Reading (Option Quantifier) := do
  match ← repetitionBounds with
  | some (min, max) => return some ⟨min, max, ← greediness⟩
  | none => return none

def quantified (part : Regex) : Reading Regex := do
  skipExtended
  match ← quantifier? with
  | some quantifier => return .repetition part quantifier (← spanFrom part.span.start)
  | none => return part

end PhpSyntax.Pattern
