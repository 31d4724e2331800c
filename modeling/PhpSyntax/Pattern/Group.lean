import PhpSyntax.Pattern.Brackets
import PhpSyntax.Pattern.Quantified

namespace PhpSyntax.Pattern

open Reading

/-- The readers that occur inside others. They are called only after a character has been read, so
that they stand for the same readers on a shorter pattern. -/
structure NestedReaders where
  disjunction : Reading Regex
  group : Reading (Option Regex)
  brackets : Reading CharacterClass

def withFlags {α : Type} (change : Flags → Flags) (reading : Reading α) : Reading α := do
  let saved := (← get).flags
  modify fun r => { r with flags := change r.flags }
  let result ← reading
  modify fun r => { r with flags := saved }
  return result

/-- Reads the content of a group and its closing parenthesis. Flags that are changed inside do not
hold outside. -/
def groupBody (n : NestedReaders) (start : Nat) (kind : GroupKind) (change : Flags → Flags) :
    Reading Regex := do
  let element ← withFlags change n.disjunction
  let _ ← expect ')'
  return .group kind (some element) (← spanFrom start)

def nextIndex : Reading Nat := do
  modify fun r => { r with groups := r.groups + 1 }
  return (← get).groups

def groupName (close : Char) : Reading (Option String) := do
  let name ← takeRun fun c => Text.isAlphanumeric c || c = '_'
  if name.isEmpty then
    expected .groupName
    return none
  else if ← expect close then return some (String.ofList name)
  else return none

def namedGroup (n : NestedReaders) (start : Nat) (close : Char) : Reading (Option Regex) := do
  match ← groupName close with
  | some name =>
    let index ← nextIndex
    return some (← groupBody n start (.capturing index (some name)) id)
  | none => return none

def announcedGroup (n : NestedReaders) (start : Nat) : Reading (Option Regex) := do
  skip 1
  match ← next? with
  | some '<' => namedGroup n start '>'
  | some '=' =>
    match ← groupName ')' with
    | some reference => return some (.backReference reference (← spanFrom start))
    | none => return none
  | some '>' =>
    match ← groupName ')' with
    | some _ => return some (.group (.nonCapturing none) none (← spanFrom start))
    | none => return none
  | _ =>
    reportFrom .expectedGroupKind start
    return none

def comment : Reading Unit := do
  skip ((← get).runLength (· ≠ ')'))
  let _ ← expect ')'

def groupCall (start : Nat) : Reading Regex := do
  skip ((← get).runLength (· ≠ ')'))
  let _ ← expect ')'
  return .group (.nonCapturing none) none (← spanFrom start)

/-- The flags that the characters set and, after a hyphen, clear; how many characters say so; and
the letters among them that are no flags. -/
def flagLetters (disabling : Bool) (change : FlagChange) :
    List SourceChar → FlagChange × Nat × List SourceChar
  | [] => (change, 0, [])
  | c :: cs =>
    if c.char = '-' && !disabling then
      let (result, n, unknown) := flagLetters true change cs
      (result, n + 1, unknown)
    else if c.char.isAlpha then
      match Flags.ofInline? c.char with
      | some flags =>
        let change' : FlagChange :=
          if disabling then { change with disabled := change.disabled.union flags }
          else { change with enabled := change.enabled.union flags }
        let (result, n, unknown) := flagLetters disabling change' cs
        (result, n + 1, unknown)
      | none =>
        let (result, n, unknown) := flagLetters disabling change cs
        (result, n + 1, c :: unknown)
    else (change, 0, [])

def flagChange : Reading FlagChange := do
  let (change, n, unknown) := flagLetters false ⟨.empty, .empty⟩ (← get).rest
  skip n
  for c in unknown do
    report (.unknownFlag c.char) c.span
  return change

def flagGroup (n : NestedReaders) (start : Nat) : Reading (Option Regex) := do
  let change ← flagChange
  let kind : GroupKind := .nonCapturing (some change)
  if ← eat ')' then
    modify fun r => { r with flags := change.apply r.flags }
    return some (.group kind none (← spanFrom start))
  else if !(← get).sees ':' then
    expected .flagOrEnd
    return none
  else
    skip 1
    return some (← groupBody n start kind change.apply)

def condition (n : NestedReaders) : Reading Condition := do
  let r ← get
  if r.peek? 1 = some '?' then
    match ← n.group with
    | some (.group (.lookaround behind negated) (some element) span) =>
      return .assertion behind negated element span
    | _ =>
      reportFrom .expectedLookaround r.offset
      return .reference ""
  else
    skip 1
    let reference ← takeRun (· ≠ ')')
    let _ ← expect ')'
    return .reference (String.ofList reference)

def branches : Regex → Regex × Option Regex × Option Span
  | .disjunction (yes :: no :: more) span =>
    (yes, some no, if more.isEmpty then none else some span)
  | other => (other, none, none)

def conditional (n : NestedReaders) (start : Nat) : Reading Regex := do
  let test ← condition n
  let (yes, no, surplus) := branches (← withFlags id n.disjunction)
  if let some span := surplus then report .tooManyAlternatives span
  let _ ← expect ')'
  return .conditional test yes no (← spanFrom start)

def specialGroup (n : NestedReaders) (start : Nat) : Reading (Option Regex) := do
  let r ← get
  match r.head?, r.peek? 1 with
  | some ':', _ =>
    skip 1
    return some (← groupBody n start (.nonCapturing none) id)
  | some '>', _ =>
    skip 1
    return some (← groupBody n start .atomic id)
  | some '=', _ =>
    skip 1
    return some (← groupBody n start (.lookaround false false) id)
  | some '!', _ =>
    skip 1
    return some (← groupBody n start (.lookaround false true) id)
  | some '<', some '=' =>
    skip 2
    return some (← groupBody n start (.lookaround true false) id)
  | some '<', some '!' =>
    skip 2
    return some (← groupBody n start (.lookaround true true) id)
  | some '<', _ =>
    skip 1
    namedGroup n start '>'
  | some '\x27', _ =>
    skip 1
    namedGroup n start '\x27'
  | some 'P', _ => announcedGroup n start
  | some '#', _ =>
    comment
    return none
  | some '(', _ => return some (← conditional n start)
  | some c, d =>
    if c = 'R' || c = '&' || c.isDigit || ((c = '+' || c = '-') && d.any Char.isDigit) then
      return some (← groupCall start)
    else flagGroup n start
  | none, _ => flagGroup n start

def groupWith (n : NestedReaders) : Reading (Option Regex) := do
  let start := (← get).offset
  skip 1
  if ← eat '?' then specialGroup n start
  else
    let index ← nextIndex
    return some (← groupBody n start (.capturing index none) id)

def atom (n : NestedReaders) : Reading (Option Regex) := do
  let r ← get
  let start := r.offset
  match r.head? with
  | none => return none
  | some c =>
    if ['*', '+', '?'].contains c then
      skip 1
      report (.unexpectedQuantifier c) r.currentSpan
      return none
    else if r.bounds?.isSome then
      let _ ← bounds
      reportFrom (.unexpectedQuantifier '\x7b') start
      return none
    else if c = '(' then groupWith n
    else if c = '[' then return some (.characterClass (← bracketsWith n.brackets))
    else if c = '.' then
      skip 1
      return some (.dot (← spanFrom start))
    else if c = '^' then
      skip 1
      return some (.boundary .lineStart (← spanFrom start))
    else if c = '$' then
      skip 1
      return some (.boundary .lineEnd (← spanFrom start))
    else if c = '\\' then escape
    else return some (.character (← plainCharacter c))

/-- Reads a quotation, of which a quantifier repeats only the last character. -/
def quotedItems : Reading (List Regex) := do
  let chars ← quotation
  match chars.getLast? with
  | some last =>
    return chars.dropLast.map .character ++ [← quantified (.character last)]
  | none => return []

def quantifiedAtom (n : NestedReaders) : Reading (List Regex) := do
  match ← atom n with
  | some part => return [← quantified part]
  | none => return []

def sequenceItems (n : NestedReaders) : Nat → Reading (List Regex)
  | 0 => return []
  | rounds + 1 => do
    skipExtended
    let r ← get
    if r.head?.all fun c => c = '|' || c = ')' then return []
    else
      let items ←
        if r.sees '\\' && r.peek? 1 = some 'Q' then quotedItems else quantifiedAtom n
      return items ++ (← sequenceItems n rounds)

def sequence (n : NestedReaders) : Reading Regex := do
  let r ← get
  let items ← sequenceItems n (r.rest.length + 1)
  match items with
  | [item] => return item
  | _ => return .sequence items (← spanFrom r.offset)

def alternatives (n : NestedReaders) : Nat → Reading (List Regex)
  | 0 => return []
  | rounds + 1 => do
    if ← eat '|' then
      let next ← sequence n
      return next :: (← alternatives n rounds)
    else return []

def disjunctionWith (n : NestedReaders) : Reading Regex := do
  let r ← get
  let first ← sequence n
  match ← alternatives n (r.rest.length + 1) with
  | [] => return first
  | more => return .disjunction (first :: more) (← spanFrom r.offset)

end PhpSyntax.Pattern
