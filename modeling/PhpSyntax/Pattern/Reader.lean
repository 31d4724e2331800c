import PhpSyntax.Pattern.Fault
import PhpSyntax.Pattern.Regex
import PhpSyntax.Text.Basic

/-!
Reading a pattern. A reader never fails: it collects faults and goes on.
-/

namespace PhpSyntax.Pattern

structure Reader where
  rest : List SourceChar
  /-- The offset after the whole pattern. -/
  stop : Nat
  flags : Flags
  /-- The number of capturing groups so far. -/
  groups : Nat
  errors : List PatternError
  /-- The offset after the last character that was read. -/
  lastStop : Nat

namespace Reader

def ofChars (chars : List SourceChar) (flags : Flags) : Reader :=
  ⟨chars, (chars.getLast?.map (·.span.stop)).getD 0, flags, 0, [], 0⟩

def peek? (r : Reader) (n : Nat) : Option Char :=
  (r.rest[n]?).map (·.char)

def head? (r : Reader) : Option Char :=
  r.peek? 0

def sees (r : Reader) (c : Char) : Bool :=
  r.head? = some c

def offset (r : Reader) : Nat :=
  (r.rest.head?.map (·.span.start)).getD r.stop

/-- The stretch of the next character, or an empty one at the end. -/
def currentSpan (r : Reader) : Span :=
  (r.rest.head?.map (·.span)).getD ⟨r.stop, r.stop⟩

def spanFrom (r : Reader) (start : Nat) : Span :=
  ⟨start, max r.lastStop start⟩

def skip (r : Reader) (n : Nat) : Reader :=
  { r with
    rest := r.rest.drop n
    lastStop := ((r.rest.take n).getLast?.map (·.span.stop)).getD r.lastStop }

def report (r : Reader) (fault : PatternFault) (span : Span) : Reader :=
  { r with errors := r.errors ++ [⟨fault, span⟩] }

def runLength (r : Reader) (p : Char → Bool) : Nat :=
  (r.rest.takeWhile fun c => p c.char).length

def text (r : Reader) (n : Nat) : List Char :=
  (r.rest.take n).map (·.char)

end Reader

abbrev Reading (α : Type) := StateM Reader α

namespace Reading

def skip (n : Nat) : Reading Unit :=
  modify (·.skip n)

def next? : Reading (Option Char) := do
  let r ← get
  set (r.skip 1)
  return r.head?

def eat (c : Char) : Reading Bool := do
  let r ← get
  if r.sees c then
    set (r.skip 1)
    return true
  else return false

def takeRun (p : Char → Bool) : Reading (List Char) := do
  let r ← get
  let n := r.runLength p
  set (r.skip n)
  return r.text n

def report (fault : PatternFault) (span : Span) : Reading Unit :=
  modify (·.report fault span)

def reportFrom (fault : PatternFault) (start : Nat) : Reading Unit :=
  modify fun r => r.report fault (r.spanFrom start)

def expected (what : PatternExpectation) : Reading Unit :=
  modify fun r => r.report (.expected what r.head?) r.currentSpan

def expect (c : Char) : Reading Bool := do
  if ← eat c then return true
  else
    expected (.character c)
    return false

def spanFrom (start : Nat) : Reading Span := do
  return (← get).spanFrom start

def plainCharacter (c : Char) : Reading Character := do
  let r ← get
  set (r.skip 1)
  return ⟨c.toNat, r.currentSpan⟩

/-- How many of the characters are white space or in comments. The flag tells whether they start
inside a comment. -/
def extendedLength : Bool → List SourceChar → Nat
  | _, [] => 0
  | false, c :: cs =>
    if Text.isWhiteSpace c.char then extendedLength false cs + 1
    else if c.char = '#' then extendedLength true cs + 1
    else 0
  | true, c :: cs => extendedLength (c.char ≠ '\n') cs + 1

def skipExtended : Reading Unit := do
  let r ← get
  if r.flags.extended then skip (extendedLength false r.rest)

end Reading

end PhpSyntax.Pattern
