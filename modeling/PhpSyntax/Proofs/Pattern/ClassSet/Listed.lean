import PhpSyntax.Pattern.ClassSet.Element

namespace PhpSyntax.Pattern

def inRanges (ranges : List (Nat × Nat)) (c : Nat) : Bool :=
  ranges.any fun range => range.1 ≤ c && c ≤ range.2

theorem inRanges_append (a b : List (Nat × Nat)) (c : Nat) :
    inRanges (a ++ b) c = (inRanges a c || inRanges b c) :=
  List.any_append

/-- A range without code points can be left out. -/
theorem inRanges_filter (ranges : List (Nat × Nat)) (c : Nat) :
    inRanges (ranges.filter fun range => range.1 ≤ range.2) c = inRanges ranges c := by
  rw [inRanges, inRanges, List.any_filter]
  refine List.any_congr rfl fun range => ?_
  rw [Bool.eq_iff_iff]
  simp only [Bool.and_eq_true, decide_eq_true_eq]
  exact ⟨And.right, fun h => ⟨Nat.le_trans h.1 h.2, h⟩⟩

namespace ClassSet

def listsCharacter (flags : Flags) (code c : Nat) : Bool :=
  c = code || ((Text.charOf? code).filter fun x => folds flags (isAscii x)).any fun x =>
    c = (Text.lowerChar x).toNat || c = (Text.upperChar x).toNat

/-- A range between letters whose case does not matter stands for the ranges between their small
and between their capital letters. Where both are empty, and for all other ends, it stands for
what is between the ends. -/
def listedRanges (flags : Flags) (first last : Nat) : List (Nat × Nat) :=
  match foldedEnds? first last flags with
  | none => [(first, last)]
  | some (a, b) =>
    let cases := [((Text.lowerChar a).toNat, (Text.lowerChar b).toNat),
      ((Text.upperChar a).toNat, (Text.upperChar b).toNat)]
    if cases.any fun range => range.1 ≤ range.2 then cases else [(first, last)]

def spaceRanges (flags : Flags) : List (Nat × Nat) :=
  if flags.unicodeClass then unicodeSpaceRanges else asciiSpaceRanges

/-- An escape stands for its ranges, or for what is outside of them if its letter is a capital.
Beyond ASCII, what is no digit and what is no word is not known. -/
def listsEscape (flags : Flags) (letter : Char) (c : Nat) : Bool :=
  match letter with
  | 'd' => inRanges digitRanges c
  | 'w' => inRanges wordRanges c
  | 'D' => !flags.unicodeClass && !inRanges digitRanges c
  | 'W' => !flags.unicodeClass && !inRanges wordRanges c
  | 's' => inRanges (spaceRanges flags) c
  | 'S' => !inRanges (spaceRanges flags) c
  | 'h' => inRanges horizontalSpaceRanges c
  | 'H' => !inRanges horizontalSpaceRanges c
  | 'v' => inRanges verticalSpaceRanges c
  | 'V' => !inRanges verticalSpaceRanges c
  | _ => false

def hidesEscape (flags : Flags) (letter : Char) : Bool :=
  if ['d', 'w', 'D', 'W'].contains letter then flags.unicodeClass
  else !(['s', 'S', 'h', 'H', 'v', 'V'].contains letter)

end ClassSet

open ClassSet

mutual

def ClassElement.hides (flags : Flags) : ClassElement → Bool
  | .character _ => false
  | .range _ => false
  | .escapedClass e => hidesEscape flags e.letter
  | .nested ⟨_, ⟨elements, flags, _⟩, _⟩ => anyHides flags elements
  | .posix _ => true
  | .intersection _ _ => true

def anyHides (flags : Flags) : List ClassElement → Bool
  | [] => false
  | e :: es => e.hides flags || anyHides flags es

end

mutual

/-- Whether a member is known to match a code point under the flags. Of a class that is negated
nothing is known if its members may match more than can be listed. -/
def ClassElement.lists (flags : Flags) (c : Nat) : ClassElement → Bool
  | .character x => listsCharacter flags x.codePoint c
  | .range r => inRanges (listedRanges flags r.first.codePoint r.last.codePoint) c
  | .escapedClass e => listsEscape flags e.letter c
  | .nested ⟨negated, ⟨elements, flags, _⟩, _⟩ =>
    if negated then !anyHides flags elements && !anyLists flags c elements
    else anyLists flags c elements
  | .posix _ => false
  | .intersection _ _ => false

def anyLists (flags : Flags) (c : Nat) : List ClassElement → Bool
  | [] => false
  | e :: es => e.lists flags c || anyLists flags c es

end

mutual

/-- The first range of a member whose first code point comes after its last. Intersections are
not looked into. -/
def ClassElement.inverted? : ClassElement → Option ClassRange
  | .character _ => none
  | .range r => if r.last.codePoint < r.first.codePoint then some r else none
  | .escapedClass _ => none
  | .nested ⟨_, ⟨elements, _, _⟩, _⟩ => firstInverted? elements
  | .posix _ => none
  | .intersection _ _ => none

def firstInverted? : List ClassElement → Option ClassRange
  | [] => none
  | e :: es => e.inverted?.or (firstInverted? es)

end

def ClassElement.start? : ClassElement → Option Nat
  | .character c => some c.codePoint
  | .range r => some r.first.codePoint
  | _ => none

end PhpSyntax.Pattern
