import PhpSyntax.Lexer.Name
import PhpSyntax.Token.Basic

namespace PhpSyntax.Lexer

def isHexDigit (c : Char) : Bool :=
  c.isDigit || ('a' ≤ c && c ≤ 'f') || ('A' ≤ c && c ≤ 'F')

def isOctalDigit (c : Char) : Bool :=
  '0' ≤ c && c ≤ '7'

def isBinaryDigit (c : Char) : Bool :=
  c = '0' || c = '1'

def radixDigits? (letter : Char) : Option (Char → Bool) :=
  match letter with
  | 'x' | 'X' => some isHexDigit
  | 'b' | 'B' => some isBinaryDigit
  | 'o' | 'O' => some isOctalDigit
  | _ => none

def digitsLength (isDigit : Char → Bool) (cs : List Char) : Nat :=
  runLength (fun c => isDigit c || c = '_') cs

/-- The length of a fraction at the start of `cs`. Of two points in a row neither starts one. -/
def fractionLength : List Char → Nat
  | [] => 0
  | c :: cs =>
    if c = '.' && cs.head? ≠ some '.' then digitsLength Char.isDigit cs + 1 else 0

def exponentLength : List Char → Nat
  | [] => 0
  | c :: cs =>
    if c = 'e' || c = 'E' then
      let sign := if startsWith (fun s => s = '+' || s = '-') cs then 1 else 0
      let digits := cs.drop sign
      if startsWith Char.isDigit digits then 1 + sign + digitsLength Char.isDigit digits else 0
    else 0

/-- The kind of the decimal number that `first` starts, a digit or a point, and how many
characters of `cs` it takes besides. -/
def decimalLength (first : Char) (cs : List Char) : TokenKind × Nat :=
  let whole := digitsLength Char.isDigit cs
  let fraction := if first = '.' then 0 else fractionLength (cs.drop whole)
  let exponent := exponentLength (cs.drop (whole + fraction))
  let isFloat := first = '.' || 0 < fraction || 0 < exponent
  (if isFloat then .float else .integer, whole + fraction + exponent)

def numberLength (first : Char) (cs : List Char) : TokenKind × Nat :=
  match (if first = '0' then cs.head?.bind radixDigits? else none) with
  | some isDigit => (.integer, 1 + digitsLength isDigit cs.tail)
  | none => decimalLength first cs

end PhpSyntax.Lexer
