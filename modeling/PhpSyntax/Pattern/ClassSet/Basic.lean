import PhpSyntax.Pattern.Regex

/-!
Sets of code points in which each code point has an owner. A set is a list of steps in increasing
order: from the code point of a step up to the next step, all code points have its owner or none.
-/

namespace PhpSyntax.Pattern

def maxCodePoint : Nat := 0x10FFFF

inductive ClassSetFault where
  /-- A range whose first code point comes after its last. -/
  | invertedRange (first last : Nat) (span : Span)
  /-- Code points were asked for from one to another that comes before it. -/
  | reversedRun (first last : Nat)
deriving DecidableEq

def hexText (n : Nat) : String :=
  "0x" ++ String.ofList ((Nat.toDigits 16 n).map Char.toUpper)

def ClassSetFault.message : ClassSetFault → String
  | invertedRange first last _ =>
    "Illegal character range " ++ hexText first ++ "-" ++ hexText last
  | reversedRun first last => "Reversed run " ++ hexText first ++ "-" ++ hexText last

/-- Code points in a row with one owner. -/
structure Run (ω : Type) where
  first : Nat
  last : Nat
  owner : ω
deriving DecidableEq

structure ClassSet (ω : Type) where
  steps : List (Nat × Option ω)
  /-- Whether there are members that cannot be listed. -/
  unknown : Bool
deriving DecidableEq

namespace ClassSet

variable {ω : Type}

def empty : ClassSet ω := ⟨[], false⟩

def isEmpty (s : ClassSet ω) : Bool :=
  s.steps.all (·.2.isNone)

def ownerOf? (s : ClassSet ω) (c : Nat) : Option ω :=
  ((s.steps.takeWhile (·.1 ≤ c)).getLast?).bind (·.2)

def contains (s : ClassSet ω) (c : Nat) : Bool :=
  (s.ownerOf? c).isSome

/-- The runs that steps make. The last one ends with the largest code point. -/
def runsOf : List (Nat × Option ω) → List (Run ω)
  | [] => []
  | (_, none) :: rest => runsOf rest
  | (first, some owner) :: rest =>
    ⟨first, (rest.head?.map (·.1 - 1)).getD maxCodePoint, owner⟩ :: runsOf rest

def runs (s : ClassSet ω) : List (Run ω) :=
  runsOf s.steps

/-- The steps from one code point to another. Of a set with steps they cannot be asked for
backwards. -/
def stepsIn (s : ClassSet ω) (first last : Nat) :
    Except ClassSetFault (List (Nat × Option ω)) :=
  if s.steps.isEmpty then .ok []
  else if last < first then .error (.reversedRun first last)
  else .ok (s.steps.filter fun step => first ≤ step.1 && step.1 ≤ last)

def intersects (s : ClassSet ω) (first last : Nat) : Except ClassSetFault Bool :=
  if s.contains first then .ok true
  else do return (← s.stepsIn first last).any (·.2.isSome)

def insertOwner [DecidableEq ω] (owners : List ω) (owner : ω) : List ω :=
  if owners.contains owner then owners else owners ++ [owner]

/-- The owners in the first set of code points of the second, by their first such code point. -/
def intersections [DecidableEq ω] (s t : ClassSet ω) : Except ClassSetFault (List ω) :=
  s.runs.foldlM (fun owners run => do
    if ← t.intersects run.first run.last then return insertOwner owners run.owner
    else return owners) []

/-- The steps with one more, which takes the place of a step at the same code point. -/
def insertStep (c : Nat) (owner : Option ω) : List (Nat × Option ω) → List (Nat × Option ω)
  | [] => [(c, owner)]
  | step :: rest =>
    if c < step.1 then (c, owner) :: step :: rest
    else if c = step.1 then (c, owner) :: rest
    else step :: insertStep c owner rest

def addRun (s : ClassSet ω) (first last : Nat) (owner : ω) :
    Except ClassSetFault (ClassSet ω) := do
  let covered ← s.stepsIn first last
  let kept := s.steps.filter fun step => !covered.any (·.1 = step.1)
  let closed :=
    if last < maxCodePoint then insertStep (last + 1) (s.ownerOf? (last + 1)) kept else kept
  return { s with steps := insertStep first (some owner) closed }

def addRanges (s : ClassSet ω) (ranges : List (Nat × Nat)) (owner : ω) :
    Except ClassSetFault (ClassSet ω) :=
  ranges.foldlM (fun s range => s.addRun range.1 range.2 owner) s

def addSet (s t : ClassSet ω) : Except ClassSetFault (ClassSet ω) := do
  let sum ← t.runs.foldlM (fun s run => s.addRun run.first run.last run.owner) s
  return { sum with unknown := sum.unknown || t.unknown }

def addBetween (owner : ω) (s : ClassSet ω) (next : Nat) :
    List (Run ω) → Except ClassSetFault (ClassSet ω)
  | [] => if next ≤ maxCodePoint then s.addRun next maxCodePoint owner else .ok s
  | run :: rest => do
    let s ← if next < run.first then s.addRun next (run.first - 1) owner else .ok s
    addBetween owner s (run.last + 1) rest

def addComplement (s t : ClassSet ω) (owner : ω) : Except ClassSetFault (ClassSet ω) :=
  addBetween owner s 0 t.runs

def addComplementOf (s : ClassSet ω) (ranges : List (Nat × Nat)) (owner : ω) :
    Except ClassSetFault (ClassSet ω) := do
  s.addComplement (← empty.addRanges ranges owner) owner

end ClassSet

end PhpSyntax.Pattern
