import PhpSyntax.Text.Digits

namespace PhpSyntax.Literal

def simpleEscape? (c : Char) : Option Char :=
  match c with
  | 'n' => some '\n'
  | 'r' => some '\r'
  | 't' => some '\t'
  | 'v' => some '\x0b'
  | 'e' => some '\x1b'
  | 'f' => some '\x0c'
  | '\\' => some '\\'
  | '$' => some '$'
  | '\x22' => some '\x22'
  | _ => none

def charOfDigits? (base : Nat) (digits : List Char) : Option Char := do
  Text.charOf? (← Text.numberOf? base digits)

def hexEscape? (cs : List Char) : Option (Char × Nat) := do
  let digits := (cs.take 2).takeWhile (Text.isDigitBelow 16)
  return (← charOfDigits? 16 digits, digits.length)

def bracedEscape? : List Char → Option (Char × Nat)
  | '\x7b' :: cs => do
    let digits := cs.takeWhile (Text.isDigitBelow 16)
    guard ((cs.drop digits.length).head? = some '\x7d')
    return (← charOfDigits? 16 digits, digits.length + 2)
  | _ => none

/-- Up to three octal digits, of whose value the lowest eight bits count. -/
def octalEscape? (cs : List Char) : Option (Char × Nat) := do
  let digits := (cs.take 3).takeWhile (Text.isDigitBelow 8)
  let value ← Text.numberOf? 8 digits
  return (← Text.charOf? (value % 256), digits.length)

/-- The character that an escape stands for, and how many characters after the backslash make it
up. Where `cs` starts no escape, the backslash stands for itself. -/
def escape? : List Char → Option (Char × Nat)
  | [] => none
  | c :: cs =>
    match simpleEscape? c with
    | some decoded => some (decoded, 1)
    | none =>
      if c = 'x' then (hexEscape? cs).map fun (decoded, n) => (decoded, n + 1)
      else if c = 'u' then (bracedEscape? cs).map fun (decoded, n) => (decoded, n + 1)
      else octalEscape? (c :: cs)

end PhpSyntax.Literal
