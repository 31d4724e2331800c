import PhpSyntax.Pattern.Reader
import PhpSyntax.Text.Numeric

namespace PhpSyntax.Pattern

open Reading

/-- The largest number that a pattern can hold; larger ones count as this one. -/
def largestNumber : Nat := 0xFFFFFFFF

def cappedNumber (base : Nat) (digits : List Char) : Nat :=
  min ((Text.numberOf? base digits).getD 0) largestNumber

def isWordLetter (c : Char) : Bool :=
  c.isAlpha || c.isDigit

def isClassEscape (letter : Char) : Bool :=
  ['d', 'D', 'w', 'W', 's', 'S', 'h', 'H', 'v', 'V', 'p', 'P'].contains letter

def boundaryOf? (letter : Char) : Option BoundaryKind :=
  match letter with
  | 'b' => some .word
  | 'B' => some .nonWord
  | 'A' => some .inputStart
  | 'z' => some .inputEnd
  | 'Z' => some .inputEndFinalTerminator
  | 'G' => some .previousMatchEnd
  | 'K' => some .matchStartReset
  | _ => none

def controlOf? (letter : Char) : Option Nat :=
  match letter with
  | 't' => some 0x09
  | 'n' => some 0x0A
  | 'r' => some 0x0D
  | 'f' => some 0x0C
  | 'e' => some 0x1B
  | 'a' => some 0x07
  | _ => none

def digits (base limit : Nat) : Reading Nat := do
  let r ← get
  let n := min limit (r.runLength (Text.isDigitBelow base))
  set (r.skip n)
  return cappedNumber base (r.text n)

def hexEscape : Reading (Option Nat) := do
  if !(← eat '\x7b') then return some (← digits 16 2)
  else
    let written ← takeRun (Text.isDigitBelow 16)
    if written.isEmpty then
      expected .hexDigit
      return none
    else if ← expect '\x7d' then return some (cappedNumber 16 written)
    else return none

def Reader.lowSurrogate? (r : Reader) : Option Nat := do
  guard (r.sees '\\' && r.peek? 1 = some 'u')
  let written := (r.text 6).drop 2
  guard (written.length = 4)
  let low ← Text.numberOf? 16 written
  guard (0xDC00 ≤ low && low ≤ 0xDFFF)
  return low

/-- Reads a code point in four hexadecimal digits, or two of them that make a surrogate pair. -/
def unicodeEscape : Reading (Option Nat) := do
  let r ← get
  let n := min 4 (r.runLength (Text.isDigitBelow 16))
  let value := cappedNumber 16 (r.text n)
  let after := r.skip n
  set after
  if n < 4 then
    expected .hexDigit
    return none
  else
    match (if 0xD800 ≤ value && value < 0xDC00 then after.lowSurrogate? else none) with
    | some low =>
      skip 6
      return some (0x10000 + (value - 0xD800) * 0x400 + (low - 0xDC00))
    | none => return some value

def controlEscape (start : Nat) : Reading (Option Nat) := do
  match ← next? with
  | some c =>
    if c.toNat < 0x80 then return some (c.toUpper.toNat ^^^ 0x40)
    else
      reportFrom .expectedControlCharacter start
      return none
  | none =>
    reportFrom .expectedControlCharacter start
    return none

def codePoint (letter : Char) (start : Nat) : Reading (Option Nat) := do
  match controlOf? letter with
  | some code => return some code
  | none =>
    if letter = '0' then return some (← digits 8 2)
    else if letter = 'x' then hexEscape
    else if letter = 'u' then unicodeEscape
    else if letter = 'c' then controlEscape start
    else if !isWordLetter letter then return some letter.toNat
    else
      reportFrom (.invalidEscape letter) start
      return none

def characterEscape (start : Nat) : Reading (Option Character) := do
  match ← next? with
  | none => return none
  | some letter =>
    match ← codePoint letter start with
    | some code => return some ⟨code, ← spanFrom start⟩
    | none => return none

def property : Reading (Option String) := do
  if ← eat '\x7b' then
    let name ← takeRun (· ≠ '\x7d')
    let _ ← expect '\x7d'
    return some (String.ofList name)
  else
    match ← next? with
    | some c => return some (String.singleton c)
    | none =>
      expected .propertyName
      return none

def escapedClass (start : Nat) (letter : Char) : Reading EscapedClass := do
  skip 1
  let property ← if letter = 'p' || letter = 'P' then property else pure none
  return ⟨letter, property, ← spanFrom start⟩

def isReferenceChar (c : Char) : Bool :=
  Text.isAlphanumeric c || c = '_' || c = '-' || c = '+'

def closedReference (start : Nat) (close : Char) : Reading (Option Regex) := do
  skip 1
  let reference ← takeRun fun c => c ≠ close && isReferenceChar c
  if ← expect close then
    return some (.backReference (String.ofList reference) (← spanFrom start))
  else return none

def groupReference (start : Nat) (letter : Char) : Reading (Option Regex) := do
  skip 1
  match (← get).head? with
  | some '\x7b' => closedReference start '\x7d'
  | some '<' => closedReference start '>'
  | some '\x27' => closedReference start '\x27'
  | some c =>
    if letter = 'g' && (c.isDigit || c = '-' || c = '+') then
      skip 1
      let written ← takeRun Char.isDigit
      return some (.backReference (String.ofList (c :: written)) (← spanFrom start))
    else
      expected .groupReference
      return none
  | none =>
    expected .groupReference
    return none

/-- Reads an escape outside of a class. The end of a quotation that never started stands for
nothing. -/
def escape : Reading (Option Regex) := do
  let start := (← get).offset
  skip 1
  match (← get).head? with
  | none =>
    expected .escapedCharacter
    return none
  | some letter =>
    if isClassEscape letter || ['R', 'X', 'N'].contains letter then
      return some (.escapedClass (← escapedClass start letter))
    else
      match boundaryOf? letter with
      | some kind =>
        skip 1
        return some (.boundary kind (← spanFrom start))
      | none =>
        if '1' ≤ letter && letter ≤ '9' then
          let written ← takeRun Char.isDigit
          return some (.backReference (String.ofList written) (← spanFrom start))
        else if letter = 'g' || letter = 'k' then groupReference start letter
        else if letter = 'E' then
          skip 1
          return none
        else return (← characterEscape start).map .character

def quotedLength : List SourceChar → Nat × Nat
  | [] => (0, 0)
  | c :: cs =>
    if c.char = '\\' && cs.head?.any (·.char = 'E') then (0, 2)
    else
      let (n, close) := quotedLength cs
      (n + 1, close)

def quotation : Reading (List Character) := do
  skip 2
  let r ← get
  let (n, close) := quotedLength r.rest
  set (r.skip (n + close))
  return (r.rest.take n).map fun c => ⟨c.char.toNat, c.span⟩

end PhpSyntax.Pattern
