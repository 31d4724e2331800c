namespace PhpSyntax.Text

def digitValue? (c : Char) : Option Nat :=
  if '0' ≤ c && c ≤ '9' then some (c.toNat - '0'.toNat)
  else if 'a' ≤ c && c ≤ 'f' then some (c.toNat - 'a'.toNat + 10)
  else if 'A' ≤ c && c ≤ 'F' then some (c.toNat - 'A'.toNat + 10)
  else none

def digitBelow? (base : Nat) (c : Char) : Option Nat :=
  (digitValue? c).filter (· < base)

def isDigitBelow (base : Nat) (c : Char) : Bool :=
  (digitBelow? base c).isSome

def appendDigits? (base : Nat) (high : Nat) : List Char → Option Nat
  | [] => some high
  | c :: cs => do appendDigits? base (high * base + (← digitBelow? base c)) cs

def numberOf? (base : Nat) (digits : List Char) : Option Nat :=
  if digits.isEmpty then none else appendDigits? base 0 digits

/-- The character with a code point, which no surrogate has. -/
def charOf? (code : Nat) : Option Char :=
  if code.isValidChar then some (Char.ofNat code) else none

end PhpSyntax.Text
