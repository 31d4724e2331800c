import PhpSyntax.Pattern.Visit

namespace PhpSyntax.Pattern

namespace Part

theorem visit_eq (enter : Part → Bool) (part : Part) :
    part.visit enter = part :: if enter part then part.children.flatMap (visit enter) else [] := by
  have h : part.children.flatMap (visit enter) =
      part.children.attach.flatMap fun c => c.1.visit enter := by
    conv => lhs; rw [← List.attach_map_subtype_val part.children, List.flatMap_map]
  rw [visit, h]

theorem visit_subset (enter : Part → Bool) (part : Part) :
    part.visit enter ⊆ part.visit fun _ => true := by
  induction part using visit.induct with
  | case1 part ih =>
    rw [visit_eq, visit_eq fun _ => true, if_pos rfl]
    refine List.cons_subset_cons part ?_
    split
    · intro p hp
      obtain ⟨c, hc, hp⟩ := List.mem_flatMap.mp hp
      exact List.mem_flatMap.mpr ⟨c, hc, ih c hc hp⟩
    · exact List.nil_subset _

theorem mem_visit {part p : Part} :
    p ∈ part.visit (fun _ => true) ↔ p = part ∨ ∃ c ∈ part.children, p ∈ c.visit fun _ => true := by
  rw [visit_eq, if_pos rfl, List.mem_cons, List.mem_flatMap]

/-- What is inside a part inside another is inside that one. -/
theorem visit_trans {part p q : Part} (hp : p ∈ part.visit fun _ => true)
    (hq : q ∈ p.visit fun _ => true) : q ∈ part.visit fun _ => true := by
  induction part using visit.induct with
  | case1 part ih =>
    obtain rfl | ⟨c, hc, hp⟩ := mem_visit.mp hp
    · exact hq
    · exact mem_visit.mpr (.inr ⟨c, hc, ih c hc hp⟩)

def Everywhere (P : Part → Prop) (part : Part) : Prop :=
  ∀ p ∈ part.visit (fun _ => true), P p

theorem everywhere_iff {P : Part → Prop} {part : Part} :
    part.Everywhere P ↔ P part ∧ ∀ c ∈ part.children, c.Everywhere P := by
  constructor
  · intro h
    exact ⟨h part (mem_visit.mpr (.inl rfl)),
      fun c hc p hp => h p (mem_visit.mpr (.inr ⟨c, hc, hp⟩))⟩
  · rintro ⟨hself, hin⟩ p hp
    obtain rfl | ⟨c, hc, hp⟩ := mem_visit.mp hp
    · exact hself
    · exact hin c hc p hp

def unions (part : Part) : List ClassUnion :=
  (part.visit fun _ => true).filterMap fun
    | .union u => some u
    | _ => none

theorem unions_of_ne {part : Part} (h : ∀ u, part ≠ union u) :
    part.unions = part.children.flatMap unions := by
  rw [unions, visit_eq, if_pos rfl, List.filterMap_cons, List.filterMap_flatMap]
  cases part with
  | union u => exact (h u rfl).elim
  | _ => rfl

theorem mem_unions {part : Part} {u : ClassUnion} :
    u ∈ part.unions ↔ union u ∈ part.visit fun _ => true := by
  simp only [unions, List.mem_filterMap]
  constructor
  · rintro ⟨p, hp, h⟩
    split at h
    · cases h
      exact hp
    · simp at h
  · exact fun h => ⟨_, h, rfl⟩

def Holds (P : ClassUnion → Prop) (part : Part) : Prop :=
  ∀ u, union u ∈ part.visit (fun _ => true) → P u

variable {P : ClassUnion → Prop}

theorem holds_iff (part : Part) :
    part.Holds P ↔ (∀ u, part = union u → P u) ∧ ∀ c ∈ part.children, c.Holds P := by
  unfold Holds
  constructor
  · intro h
    exact ⟨fun u hu => h u (mem_visit.mpr (.inl hu.symm)),
      fun c hc u hu => h u (mem_visit.mpr (.inr ⟨c, hc, hu⟩))⟩
  · rintro ⟨hself, hin⟩ u hu
    obtain hu | ⟨c, hc, hu⟩ := mem_visit.mp hu
    · exact hself u hu.symm
    · exact hin c hc u hu

theorem holds_union {u : ClassUnion} :
    (union u).Holds P ↔ P u ∧ ∀ e ∈ u.elements, (member e).Holds P := by
  rw [holds_iff]
  simp [children]

theorem holds_characterClass {c : CharacterClass} :
    (characterClass c).Holds P ↔ (union c.union).Holds P := by
  rw [holds_iff]
  simp [children]

theorem holds_of_children_eq_nil {part : Part} (h : part.children = [])
    (hu : ∀ u, part ≠ union u) : part.Holds P := by
  rw [holds_iff]
  exact ⟨fun u he => (hu u he).elim, by simp [h]⟩

theorem holds_member {e : ClassElement} : (member e).Holds P ↔ (ofElement e).Holds P := by
  rw [holds_iff]
  simp [children]

theorem holds_character (c : Character) : (character c).Holds P :=
  holds_of_children_eq_nil rfl nofun

theorem holds_member_character (c : Character) (P : ClassUnion → Prop) :
    (member (.character c)).Holds P :=
  holds_member.mpr (holds_character c)

theorem holds_range (r : ClassRange) : (range r).Holds P := by
  rw [holds_iff]
  simp [children, holds_character]

theorem holds_intersection {operands : List ClassUnion} {s : Span} :
    (intersection operands s).Holds P ↔ ∀ u ∈ operands, (union u).Holds P := by
  rw [holds_iff]
  simp [children]

end Part

namespace Regex

variable {P : ClassUnion → Prop}

def Holds (P : ClassUnion → Prop) (tree : Regex) : Prop :=
  (Part.regex tree).Holds P

@[simp]
theorem unions_regex (tree : Regex) : (Part.regex tree).unions = tree.unions := rfl

theorem unions_eq (tree : Regex) :
    tree.unions = (Part.ofRegex tree).children.flatMap Part.unions := by
  have hne : ∀ u, Part.ofRegex tree ≠ .union u := by
    intro u h
    cases tree <;> cases h
  have h : (Part.regex tree).unions = [Part.ofRegex tree].flatMap Part.unions :=
    Part.unions_of_ne nofun
  rw [← Part.unions_of_ne hne, ← unions_regex, h]
  exact List.flatMap_singleton ..

theorem mem_unions {tree : Regex} {u : ClassUnion} :
    u ∈ tree.unions ↔ Part.union u ∈ tree.visit fun _ => true :=
  Part.mem_unions

theorem holds_iff (tree : Regex) : tree.Holds P ↔ (Part.ofRegex tree).Holds P := by
  rw [Holds, Part.holds_iff]
  simp [Part.children]

theorem holds_of_children_eq_nil {tree : Regex} (h : (Part.ofRegex tree).children = [])
    (hu : ∀ u, Part.ofRegex tree ≠ .union u) : tree.Holds P :=
  (holds_iff tree).mpr (Part.holds_of_children_eq_nil h hu)

theorem holds_sequence {items : List Regex} {s : Span} :
    (sequence items s).Holds P ↔ ∀ t ∈ items, t.Holds P := by
  rw [holds_iff, Part.holds_iff]
  simp [Part.ofRegex, Part.children, Holds]

theorem holds_disjunction {alternatives : List Regex} {s : Span} :
    (disjunction alternatives s).Holds P ↔ ∀ t ∈ alternatives, t.Holds P := by
  rw [holds_iff, Part.holds_iff]
  simp [Part.ofRegex, Part.children, Holds]

theorem holds_group {kind : GroupKind} {element : Option Regex} {s : Span} :
    (group kind element s).Holds P ↔ ∀ t ∈ element, t.Holds P := by
  rw [holds_iff, Part.holds_iff]
  simp [Part.ofRegex, Part.children, Holds]

theorem holds_repetition {element : Regex} {q : Quantifier} {s : Span} :
    (repetition element q s).Holds P ↔ element.Holds P := by
  rw [holds_iff, Part.holds_iff]
  simp [Part.ofRegex, Part.children, Holds]

theorem holds_characterClass {c : CharacterClass} :
    (characterClass c).Holds P ↔ (Part.union c.union).Holds P := by
  rw [holds_iff]
  exact Part.holds_characterClass

theorem holds_conditional {condition : Condition} {yes : Regex} {no : Option Regex} {s : Span} :
    (conditional condition yes no s).Holds P ↔
      (∀ part ∈ Part.ofCondition condition, part.Holds P) ∧ yes.Holds P ∧
        ∀ t ∈ no, t.Holds P := by
  rw [holds_iff, Part.holds_iff]
  simp [Part.ofRegex, Part.children, Holds, or_imp, forall_and]

end Regex

@[simp]
theorem unions_ofCondition (condition : Condition) :
    (Part.ofCondition condition).flatMap Part.unions =
      match condition with
      | .reference _ => []
      | .assertion _ _ element _ => element.unions := by
  cases condition with
  | reference text => rfl
  | assertion behind negated element s =>
    have h : (Part.group (.lookaround behind negated) (some element) s).unions =
      [Part.regex element].flatMap Part.unions := Part.unions_of_ne nofun
    simp [Part.ofCondition, h]

end PhpSyntax.Pattern
