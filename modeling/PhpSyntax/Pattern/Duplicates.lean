import PhpSyntax.Pattern.Analysed
import PhpSyntax.Pattern.ClassSet.Element
import PhpSyntax.Pattern.Visit
import PhpSyntax.Source.Finding

namespace PhpSyntax.Pattern

def duplicatesMessage : String := "Remove duplicates in this character class."

def duplicateMessage : String := "Additional duplicate"

/-- The code points of the members so far, and the members that share some. Members are known by
their places. -/
structure DuplicateSearch where
  seen : ClassSet Nat
  duplicates : List Nat

def DuplicateSearch.step (flags : Flags) (search : DuplicateSearch)
    (member : ClassElement × Nat) : Except ClassSetFault DuplicateSearch := do
  let set ← ClassSet.ofElement member.1 flags member.2
  let overlapping ← search.seen.intersections set
  let found := if overlapping.isEmpty then [] else overlapping ++ [member.2]
  return ⟨← search.seen.addSet set, found.foldl ClassSet.insertOwner search.duplicates⟩

def duplicatePlaces (u : ClassUnion) : Except ClassSetFault (List Nat) := do
  let search ← u.elements.zipIdx.foldlM (DuplicateSearch.step u.flags) ⟨.empty, []⟩
  return search.duplicates

def duplicates (u : ClassUnion) : Except ClassSetFault (List ClassElement) := do
  return (← duplicatePlaces u).filterMap fun i => u.elements[i]?

def finding? (source : DelimitedPattern) (members : List ClassElement) : Option Finding :=
  match members with
  | [] => none
  | first :: rest =>
    let start := Finding.ofPrimary (source.locationOf first.span) duplicatesMessage
    some (rest.foldl (fun finding member =>
      finding.addSecondary (source.locationOf member.span) (some duplicateMessage)) start)

/-- Whether the parts inside a part are looked at. A class with an inverted range is left out. -/
def entersPart : Part → Bool
  | .union u =>
    match duplicates u with
    | .error (.invertedRange ..) => false
    | _ => true
  | _ => true

/-- The finding about one union, if there is one. An inverted range leaves it unchecked. -/
def unionFinding (source : DelimitedPattern) (u : ClassUnion) :
    Except ClassSetFault (Option Finding) :=
  match duplicates u with
  | .ok members => .ok (finding? source members)
  | .error (.invertedRange ..) => .ok none
  | .error fault => .error fault

def checkedUnions (tree : Regex) : List ClassUnion :=
  (tree.visit entersPart).filterMap fun
    | .union u => some u
    | _ => none

def patternFindings (p : AnalysedPattern) : Except ClassSetFault (List Finding) := do
  return ((← (checkedUnions p.parsed.tree).mapM (unionFinding p.source))).filterMap id

def duplicatesInCharacterClass (tree : Tree) : Except ClassSetFault (List Finding) := do
  return (← (analysedPatterns tree).mapM patternFindings).flatten

end PhpSyntax.Pattern
