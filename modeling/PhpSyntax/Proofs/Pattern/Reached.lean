import PhpSyntax.Proofs.Pattern.Inversions
import PhpSyntax.Proofs.Pattern.Visit

/-!
The unions that are checked, said by the forms of regular expressions: every union in every part,
from left to right and each before those inside it, but for those inside a union that is left
unchecked.
-/

namespace PhpSyntax.Pattern

mutual

/-- The unions in a member of a class, without those inside a union that `skip` holds of. -/
def ClassElement.reached (skip : ClassUnion → Bool) : ClassElement → List ClassUnion
  | .nested ⟨_, ⟨elements, flags, span⟩, _⟩ =>
    ⟨elements, flags, span⟩ ::
      if skip ⟨elements, flags, span⟩ then [] else reachedMembers skip elements
  | .intersection operands _ => reachedOperands skip operands
  | .character _ | .range _ | .escapedClass _ | .posix _ => []

def reachedMembers (skip : ClassUnion → Bool) : List ClassElement → List ClassUnion
  | [] => []
  | e :: es => e.reached skip ++ reachedMembers skip es

def reachedOperands (skip : ClassUnion → Bool) : List ClassUnion → List ClassUnion
  | [] => []
  | ⟨elements, flags, span⟩ :: operands =>
    (⟨elements, flags, span⟩ ::
      if skip ⟨elements, flags, span⟩ then [] else reachedMembers skip elements) ++
      reachedOperands skip operands

end

def reachedUnion (skip : ClassUnion → Bool) (u : ClassUnion) : List ClassUnion :=
  u :: if skip u then [] else reachedMembers skip u.elements

mutual

def Regex.reached (skip : ClassUnion → Bool) : Regex → List ClassUnion
  | .sequence items _ => reachedItems skip items
  | .disjunction alternatives _ => reachedItems skip alternatives
  | .group _ element _ => reachedOption skip element
  | .conditional condition yes no _ =>
    reachedCondition skip condition ++ yes.reached skip ++ reachedOption skip no
  | .repetition element _ _ => element.reached skip
  | .characterClass c => reachedUnion skip c.union
  | .character _ | .dot _ | .boundary .. | .backReference .. | .escapedClass _ => []

def reachedItems (skip : ClassUnion → Bool) : List Regex → List ClassUnion
  | [] => []
  | item :: items => item.reached skip ++ reachedItems skip items

def reachedOption (skip : ClassUnion → Bool) : Option Regex → List ClassUnion
  | none => []
  | some element => element.reached skip

def reachedCondition (skip : ClassUnion → Bool) : ConditionOf Regex → List ClassUnion
  | .reference _ => []
  | .assertion _ _ element _ => element.reached skip

end

namespace Part

def visitedUnions (enter : Part → Bool) (part : Part) : List ClassUnion :=
  (part.visit enter).filterMap fun
    | .union u => some u
    | _ => none

variable {enter enter' : Part → Bool}

theorem mem_visitedUnions {part : Part} {u : ClassUnion} (h : union u ∈ part.visit enter) :
    u ∈ part.visitedUnions enter :=
  List.mem_filterMap.mpr ⟨_, h, rfl⟩

theorem visitedUnions_of_ne {part : Part} (h : ∀ u, part ≠ union u) (he : enter part = true) :
    part.visitedUnions enter = part.children.flatMap (visitedUnions enter) := by
  rw [visitedUnions, visit_eq, if_pos he, List.filterMap_cons, List.filterMap_flatMap]
  cases part with
  | union u => exact absurd rfl (h u)
  | _ => rfl

/-- Only what is said of the visited parts counts. -/
theorem visit_congr {part : Part} (h : ∀ q ∈ part.visit enter, enter q = enter' q) :
    part.visit enter = part.visit enter' := by
  induction part using visit.induct with
  | case1 part ih =>
    rw [visit_eq] at h
    rw [visit_eq, visit_eq enter', ← h part (.head _)]
    split
    · next he =>
      rw [if_pos he] at h
      have hchildren : part.children.map (visit enter) = part.children.map (visit enter') :=
        List.map_congr_left fun c hc => ih c hc fun q hq =>
          h q (.tail _ (List.mem_flatMap.mpr ⟨c, hc, hq⟩))
      rw [List.flatMap_def, List.flatMap_def, hchildren]
    · rfl

def enters (skip : ClassUnion → Bool) : Part → Bool
  | union u => !skip u
  | _ => true

section Visited

variable {skip : ClassUnion → Bool}

theorem visited_of_ne (part : Part) (h : ∀ u, part ≠ union u) :
    part.visitedUnions (enters skip) = part.children.flatMap (visitedUnions (enters skip)) := by
  refine visitedUnions_of_ne h ?_
  cases part with
  | union u => exact absurd rfl (h u)
  | _ => rfl

theorem visited_regex (tree : Regex) : (regex tree).visitedUnions (enters skip) =
    (ofRegex tree).children.flatMap (visitedUnions (enters skip)) := by
  have hne : ∀ u, ofRegex tree ≠ union u := by
    intro u h
    cases tree <;> cases h
  rw [visited_of_ne (regex tree) nofun, children, List.flatMap_singleton, visited_of_ne _ hne]

theorem visited_member (e : ClassElement) : (member e).visitedUnions (enters skip) =
    (ofElement e).children.flatMap (visitedUnions (enters skip)) := by
  have hne : ∀ u, ofElement e ≠ union u := by
    intro u h
    cases e <;> cases h
  rw [visited_of_ne (member e) nofun, children, List.flatMap_singleton, visited_of_ne _ hne]

theorem visited_union (u : ClassUnion) : (union u).visitedUnions (enters skip) =
    u :: if skip u then [] else
      u.elements.flatMap fun e => (member e).visitedUnions (enters skip) := by
  rw [visitedUnions, visit_eq]
  refine congrArg (u :: ·) ?_
  cases hs : skip u with
  | true => simp [enters, hs]
  | false =>
    simp only [enters, hs, Bool.not_false, if_true, List.filterMap_flatMap, children,
      List.flatMap_map]
    rfl

theorem visited_character (c : Character) :
    (character c).visitedUnions (enters skip) = [] :=
  visited_of_ne (character c) nofun

end Visited

variable (skip : ClassUnion → Bool)

mutual

theorem visitedUnions_member : ∀ e : ClassElement,
    (member e).visitedUnions (enters skip) = e.reached skip
  | .nested ⟨negated, ⟨elements, flags, span⟩, span'⟩ => by
    rw [visited_member, ofElement, children, List.flatMap_singleton, visited_union,
      visitedUnions_members elements, ClassElement.reached]
  | .intersection operands span => by
    rw [visited_member, ofElement, children, List.flatMap_map, visitedUnions_operands operands,
      ClassElement.reached]
  | .range r => by
    rw [visited_member, ofElement, children, List.flatMap_cons, List.flatMap_singleton,
      visited_character, visited_character, ClassElement.reached, List.append_nil]
  | .character c => by rw [visited_member, ClassElement.reached]; rfl
  | .escapedClass c => by rw [visited_member, ClassElement.reached]; rfl
  | .posix c => by rw [visited_member, ClassElement.reached]; rfl

theorem visitedUnions_members : ∀ es : List ClassElement,
    es.flatMap (fun e => (member e).visitedUnions (enters skip)) = reachedMembers skip es
  | [] => by rw [List.flatMap_nil, reachedMembers]
  | e :: es => by
    rw [List.flatMap_cons, visitedUnions_member e, visitedUnions_members es, reachedMembers]

theorem visitedUnions_operands : ∀ us : List ClassUnion,
    us.flatMap (fun u => (union u).visitedUnions (enters skip)) = reachedOperands skip us
  | [] => by rw [List.flatMap_nil, reachedOperands]
  | ⟨elements, flags, span⟩ :: us => by
    rw [List.flatMap_cons, visitedUnions_operands us, visited_union,
      visitedUnions_members elements, reachedOperands]

end

theorem visitedUnions_reached (u : ClassUnion) :
    (union u).visitedUnions (enters skip) = reachedUnion skip u := by
  rw [visited_union, visitedUnions_members, reachedUnion]

mutual

theorem visitedUnions_regex : ∀ tree : Regex,
    (regex tree).visitedUnions (enters skip) = tree.reached skip
  | .sequence items span => by
    rw [visited_regex, ofRegex, children, List.flatMap_map, visitedUnions_items items,
      Regex.reached]
  | .disjunction alternatives span => by
    rw [visited_regex, ofRegex, children, List.flatMap_map, visitedUnions_items alternatives,
      Regex.reached]
  | .group kind element span => by
    rw [visited_regex, ofRegex, children, List.flatMap_map, visitedUnions_option element,
      Regex.reached]
  | .conditional condition yes no span => by
    rw [visited_regex, ofRegex, children, List.flatMap_append, List.flatMap_cons, List.flatMap_map,
      visitedUnions_condition condition, visitedUnions_regex yes, visitedUnions_option no,
      Regex.reached, List.append_assoc]
  | .repetition element quantifier span => by
    rw [visited_regex, ofRegex, children, List.flatMap_singleton, visitedUnions_regex element,
      Regex.reached]
  | .characterClass c => by
    rw [visited_regex, ofRegex, children, List.flatMap_singleton, visitedUnions_reached,
      Regex.reached]
  | .character c => by rw [visited_regex, Regex.reached]; rfl
  | .dot span => by rw [visited_regex, Regex.reached]; rfl
  | .boundary kind span => by rw [visited_regex, Regex.reached]; rfl
  | .backReference reference span => by rw [visited_regex, Regex.reached]; rfl
  | .escapedClass e => by rw [visited_regex, Regex.reached]; rfl

theorem visitedUnions_items : ∀ items : List Regex,
    items.flatMap (fun t => (regex t).visitedUnions (enters skip)) = reachedItems skip items
  | [] => by rw [List.flatMap_nil, reachedItems]
  | item :: items => by
    rw [List.flatMap_cons, visitedUnions_regex item, visitedUnions_items items, reachedItems]

theorem visitedUnions_option : ∀ element : Option Regex,
    element.toList.flatMap (fun t => (regex t).visitedUnions (enters skip)) =
      reachedOption skip element
  | none => by rw [Option.toList_none, List.flatMap_nil, reachedOption]
  | some element => by
    rw [Option.toList_some, List.flatMap_singleton, visitedUnions_regex element, reachedOption]

theorem visitedUnions_condition : ∀ condition : ConditionOf Regex,
    (ofCondition condition).flatMap (visitedUnions (enters skip)) = reachedCondition skip condition
  | .reference text => by rw [ofCondition, List.flatMap_nil, reachedCondition]
  | .assertion behind negated element span => by
    rw [ofCondition, List.flatMap_singleton,
      visited_of_ne (group (.lookaround behind negated) (some element) span) nofun, children,
      Option.toList_some, List.map_singleton, List.flatMap_singleton, visitedUnions_regex element,
      reachedCondition]

end

end Part

/-- Where no union is left unchecked, each union of the regular expression is reached. -/
theorem reached_eq_unions {skip : ClassUnion → Bool} {tree : Regex}
    (h : ∀ u ∈ tree.unions, skip u = false) : tree.reached skip = tree.unions := by
  rw [← Part.visitedUnions_regex]
  refine congrArg (List.filterMap _) (Part.visit_congr fun q hq => ?_)
  cases q with
  | union u =>
    have hu := h u (Regex.mem_unions.mpr (Part.visit_subset _ _ hq))
    simp [Part.enters, hu]
  | _ => rfl

def isAbandoned (u : ClassUnion) : Bool :=
  (firstInverted? u.elements).isSome

/-- Where each union that is checked has a result, the unions that are checked are the ones outside
of unions with an inverted range. -/
theorem checkedUnions_eq {tree : Regex} {source : DelimitedPattern}
    (h : ∀ u ∈ checkedUnions tree, ∃ finding, unionFinding source u = .ok finding) :
    checkedUnions tree = tree.reached isAbandoned := by
  rw [← Part.visitedUnions_regex]
  refine congrArg (List.filterMap _) (Part.visit_congr fun q hq => ?_)
  cases q with
  | union u =>
    obtain ⟨finding, hfinding⟩ := h u (Part.mem_visitedUnions hq)
    have htells := duplicates_tells u
    unfold unionFinding at hfinding
    simp only [entersPart, Part.enters, isAbandoned]
    split at hfinding
    · next members hd => simp [hd, htells.of_ok members hd]
    · next first last span hd =>
      have hsome := Option.isSome_iff_ne_none.mpr (htells.of_error first last span hd)
      simp [hd, hsome]
    · cases hfinding
  | _ => rfl

end PhpSyntax.Pattern
