import PhpSyntax.Pattern.Escape

namespace PhpSyntax.Pattern

open Reading

def classAtom : Reading (Option ClassElement) := do
  let r ← get
  let start := r.offset
  match r.head? with
  | none => return none
  | some '\\' =>
    skip 1
    match (← get).head? with
    | none =>
      expected .escapedCharacter
      return none
    | some letter =>
      if isClassEscape letter then
        return some (.escapedClass (← escapedClass start letter))
      else if letter = 'b' then
        skip 1
        return some (.character ⟨0x08, ← spanFrom start⟩)
      else if '1' ≤ letter && letter ≤ '7' then
        let code ← digits 8 3
        return some (.character ⟨code, ← spanFrom start⟩)
      else return (← characterEscape start).map .character
  | some c => return some (.character (← plainCharacter c))

/-- Whether a hyphen comes next and a character after it, so that both make a range. -/
def Reader.seesRange (r : Reader) : Bool :=
  r.sees '-' &&
    match r.peek? 1, r.peek? 2 with
    | none, _ => false
    | some ']', _ => false
    | some '[', _ => false
    | some '\\', some c => !isClassEscape c && c ≠ 'Q' && c ≠ 'E'
    | _, _ => true

def classMember : Reading (Option ClassElement) := do
  match ← classAtom with
  | some (.character first) =>
    if (← get).seesRange then
      skip 1
      match ← classAtom with
      | some (.character last) =>
        return some (.range ⟨first, last, ⟨first.span.start, last.span.stop⟩⟩)
      | _ => return some (.character first)
    else return some (.character first)
  | other => return other

def Reader.posix? (r : Reader) : Option (String × Bool × Nat) := do
  guard (r.peek? 1 = some ':')
  let negated := r.peek? 2 = some '^'
  let start := if negated then 3 else 2
  let name := ((r.rest.drop start).takeWhile fun c => c.char.isAlpha).map (·.char)
  let stop := start + name.length
  guard (!name.isEmpty && r.peek? stop = some ':' && r.peek? (stop + 1) = some ']')
  return (String.ofList name, negated, stop + 2)

def innerClass (brackets : Reading CharacterClass) : Reading ClassElement := do
  let r ← get
  match r.posix? with
  | some (name, negated, n) =>
    skip n
    return .posix ⟨name, negated, ← spanFrom r.offset⟩
  | none => return .nested (← brackets)

structure ClassDraft where
  /-- The operands of an intersection before the current one. -/
  operands : List ClassUnion
  /-- Where the current operand starts. -/
  start : Nat
  /-- The members of the current operand. -/
  elements : List ClassElement

def ClassDraft.add (d : ClassDraft) (elements : List ClassElement) : ClassDraft :=
  { d with elements := d.elements ++ elements }

/-- The union that a draft makes under the flags, from `start` to `stop`. An intersection is the
only member of its union. -/
def ClassDraft.union (d : ClassDraft) (flags : Flags) (start stop : Nat) : ClassUnion :=
  let elements :=
    if d.operands.isEmpty then d.elements
    else [.intersection (d.operands ++ [⟨d.elements, flags, ⟨d.start, stop⟩⟩]) ⟨start, stop⟩]
  ⟨elements, flags, ⟨start, stop⟩⟩

def skipClassBlanks : Reading Unit := do
  let r ← get
  if r.flags.extended then skip (r.runLength Text.isWhiteSpace)

/-- Reads members in at most `rounds` rounds, and gives the offset where they end. -/
def classMembers (brackets : Reading CharacterClass) :
    Nat → ClassDraft → Reading (ClassDraft × Nat)
  | 0, draft => return (draft, (← get).offset)
  | rounds + 1, draft => do
    skipClassBlanks
    let r ← get
    match r.head?, r.peek? 1 with
    | none, _ =>
      expected (.character ']')
      return (draft, r.offset)
    | some ']', _ =>
      skip 1
      return (draft, r.offset)
    | some '&', some '&' =>
      skip 2
      let operand : ClassUnion := ⟨draft.elements, r.flags, ⟨draft.start, r.offset⟩⟩
      classMembers brackets rounds ⟨draft.operands ++ [operand], (← get).offset, []⟩
    | some '[', _ =>
      let element ← innerClass brackets
      classMembers brackets rounds (draft.add [element])
    | some '\\', some 'Q' =>
      let quoted ← quotation
      classMembers brackets rounds (draft.add (quoted.map .character))
    | some '\\', some 'E' =>
      skip 2
      classMembers brackets rounds draft
    | some _, _ =>
      let element ← classMember
      classMembers brackets rounds (draft.add element.toList)

/-- Reads a closing bracket that comes first in a class and stands for itself. -/
def leadingBracket : Reading (List ClassElement) := do
  if (← get).sees ']' then return [.character (← plainCharacter ']')] else return []

def bracketsWith (inner : Reading CharacterClass) : Reading CharacterClass := do
  let start := (← get).offset
  skip 1
  let negated ← eat '^'
  let unionStart := (← get).offset
  let first ← leadingBracket
  let rounds := (← get).rest.length + 1
  let (draft, unionStop) ← classMembers inner rounds ⟨[], unionStart, first⟩
  let r ← get
  return ⟨negated, draft.union r.flags unionStart unionStop, r.spanFrom start⟩

end PhpSyntax.Pattern
