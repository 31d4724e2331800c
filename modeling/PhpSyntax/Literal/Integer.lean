import PhpSyntax.Text.Digits

namespace PhpSyntax.Literal

def splitBase : List Char → Nat × List Char
  | '0' :: 'x' :: digits => (16, digits)
  | '0' :: 'b' :: digits => (2, digits)
  | '0' :: 'o' :: digits => (8, digits)
  | '0' :: c :: digits => (8, c :: digits)
  | digits => (10, digits)

def signedNumber? (base : Nat) : List Char → Option Int
  | '+' :: digits => (Text.numberOf? base digits).map Int.ofNat
  | '-' :: digits => (Text.numberOf? base digits).map fun n => -Int.ofNat n
  | digits => (Text.numberOf? base digits).map Int.ofNat

def integerValue? (literal : String) : Option Int := do
  let digits := (literal.toList.filter (· ≠ '_')).map Char.toLower
  let (base, digits) := splitBase digits
  let value ← signedNumber? base digits
  guard (-0x8000000000000000 ≤ value && value < 0x8000000000000000)
  return value

end PhpSyntax.Literal
