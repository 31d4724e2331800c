import PhpSyntax.Pattern.ClassSet.Basic
import PhpSyntax.Text.Alphabetic
import PhpSyntax.Text.CaseMapping

/-!
The code points that a member of a class matches. Members that cannot be listed give what is known
of them and make the set unknown.
-/

namespace PhpSyntax.Pattern

def digitRanges : List (Nat × Nat) := [(0x30, 0x39)]

def wordRanges : List (Nat × Nat) := [(0x30, 0x39), (0x41, 0x5A), (0x5F, 0x5F), (0x61, 0x7A)]

def asciiSpaceRanges : List (Nat × Nat) := [(0x09, 0x0D), (0x20, 0x20)]

def unicodeSpaceRanges : List (Nat × Nat) :=
  [(0x09, 0x0D), (0x20, 0x20), (0x85, 0x85), (0xA0, 0xA0), (0x1680, 0x1680), (0x2000, 0x200A),
   (0x2028, 0x2029), (0x202F, 0x202F), (0x205F, 0x205F), (0x3000, 0x3000)]

def horizontalSpaceRanges : List (Nat × Nat) :=
  [(0x09, 0x09), (0x20, 0x20), (0xA0, 0xA0), (0x1680, 0x1680), (0x180E, 0x180E), (0x2000, 0x200A),
   (0x202F, 0x202F), (0x205F, 0x205F), (0x3000, 0x3000)]

def verticalSpaceRanges : List (Nat × Nat) :=
  [(0x0A, 0x0D), (0x85, 0x85), (0x2028, 0x2029)]

namespace ClassSet

variable {ω : Type}

def folds (flags : Flags) (isAscii : Bool) : Bool :=
  flags.caseInsensitive && (isAscii || flags.unicodeCase)

def isAscii (c : Char) : Bool :=
  c.toNat < 0x80

def addCharacter (s : ClassSet ω) (code : Nat) (flags : Flags) (owner : ω) :
    Except ClassSetFault (ClassSet ω) := do
  let s ← s.addRun code code owner
  match (Text.charOf? code).filter fun c => folds flags (isAscii c) with
  | none => return s
  | some c =>
    let lower := (Text.lowerChar c).toNat
    let upper := (Text.upperChar c).toNat
    (← s.addRun lower lower owner).addRun upper upper owner

def foldedEnds? (first last : Nat) (flags : Flags) : Option (Char × Char) := do
  let a ← Text.charOf? first
  let b ← Text.charOf? last
  guard (Text.isAlphabetic a && Text.isAlphabetic b && folds flags (isAscii a && isAscii b))
  return (a, b)

def addRange (s : ClassSet ω) (first last : Nat) (flags : Flags) (owner : ω) :
    Except ClassSetFault (ClassSet ω) := do
  match foldedEnds? first last flags with
  | none => s.addRun first last owner
  | some (a, b) =>
    let cases := [((Text.lowerChar a).toNat, (Text.lowerChar b).toNat),
      ((Text.upperChar a).toNat, (Text.upperChar b).toNat)]
    match cases.filter fun range => range.1 ≤ range.2 with
    | [] => s.addRun first last owner
    | ranges => s.addRanges ranges owner

/-- Adds the code points of an escape. Beyond ASCII, digits and words cannot be listed. -/
def addEscapedClass (s : ClassSet ω) (letter : Char) (flags : Flags) (owner : ω) :
    Except ClassSetFault (ClassSet ω) := do
  let space := if flags.unicodeClass then unicodeSpaceRanges else asciiSpaceRanges
  let unlisted : ClassSet ω := { s with unknown := true }
  let words (ranges : List (Nat × Nat)) : Except ClassSetFault (ClassSet ω) := do
    let sum ← s.addRanges ranges owner
    return { sum with unknown := sum.unknown || flags.unicodeClass }
  match letter with
  | 'd' => words digitRanges
  | 'w' => words wordRanges
  | 'D' => if flags.unicodeClass then return unlisted else s.addComplementOf digitRanges owner
  | 'W' => if flags.unicodeClass then return unlisted else s.addComplementOf wordRanges owner
  | 's' => s.addRanges space owner
  | 'S' => s.addComplementOf space owner
  | 'h' => s.addRanges horizontalSpaceRanges owner
  | 'H' => s.addComplementOf horizontalSpaceRanges owner
  | 'v' => s.addRanges verticalSpaceRanges owner
  | 'V' => s.addComplementOf verticalSpaceRanges owner
  | _ => return unlisted

def addNested (s inner : ClassSet ω) (negated : Bool) (owner : ω) :
    Except ClassSetFault (ClassSet ω) :=
  if !negated then s.addSet inner
  else if inner.unknown then .ok { s with unknown := true }
  else s.addComplement inner owner

mutual

def addElement (flags : Flags) (owner : ω) (s : ClassSet ω) :
    ClassElement → Except ClassSetFault (ClassSet ω)
  | .character c => s.addCharacter c.codePoint flags owner
  | .range r =>
    if r.last.codePoint < r.first.codePoint then
      .error (.invertedRange r.first.codePoint r.last.codePoint r.span)
    else s.addRange r.first.codePoint r.last.codePoint flags owner
  | .escapedClass e => s.addEscapedClass e.letter flags owner
  | .nested ⟨negated, ⟨elements, flags, _⟩, _⟩ => do
    s.addNested (← addElements flags owner empty elements) negated owner
  | .posix _ => .ok { s with unknown := true }
  | .intersection _ _ => .ok { s with unknown := true }

def addElements (flags : Flags) (owner : ω) (s : ClassSet ω) :
    List ClassElement → Except ClassSetFault (ClassSet ω)
  | [] => .ok s
  | e :: es => do addElements flags owner (← addElement flags owner s e) es

end

def ofElement (element : ClassElement) (flags : Flags) (owner : ω) :
    Except ClassSetFault (ClassSet ω) :=
  addElement flags owner empty element

end ClassSet

end PhpSyntax.Pattern
