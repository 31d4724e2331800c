import PhpSyntax.Proofs.Pattern.Groups

namespace PhpSyntax.Pattern

namespace Regex

def isAlternative : Regex → Bool
  | disjunction .. => false
  | _ => true

def isItem : Regex → Bool
  | sequence .. | disjunction .. => false
  | _ => true

def isAtom : Regex → Bool
  | sequence .. | disjunction .. | repetition .. => false
  | _ => true

theorem isItem_of_isAtom {tree : Regex} (h : tree.isAtom) : tree.isItem := by
  cases tree <;> simp_all [isAtom, isItem]

theorem isAlternative_of_isItem {tree : Regex} (h : tree.isItem) : tree.isAlternative := by
  cases tree <;> simp_all [isItem, isAlternative]

theorem isAtom_of_isPlain {tree : Regex} (h : tree.isPlain) : tree.isAtom := by
  cases tree <;> simp_all [isPlain, isAtom]

end Regex

def Quantifier.Ordered (q : Quantifier) : Prop :=
  ∀ max ∈ q.max, q.min ≤ max

namespace Part

/-- The part is in normal form. The numbers of a quantifier are in order where `clean` holds. -/
def Normal (clean : Prop) : Part → Prop
  | sequence items _ => items.length ≠ 1 ∧ ∀ t ∈ items, t.isItem
  | disjunction alternatives _ => 2 ≤ alternatives.length ∧ ∀ t ∈ alternatives, t.isAlternative
  | repetition element quantifier _ => element.isAtom ∧ (clean → quantifier.Ordered)
  | conditional condition yes no _ =>
    (∀ t ∈ yes :: no.toList, t.isAlternative) ∧
      ∀ part ∈ ofCondition condition, ∃ behind negated element s,
        part = group (.lookaround behind negated) element s
  | union u => ∀ operands s, .intersection operands s ∈ u.elements →
      u.elements = [.intersection operands s]
  | intersection operands _ => 2 ≤ operands.length
  | _ => True

end Part

variable {clean : Prop}

def Regex.IsNormal (clean : Prop) (tree : Regex) : Prop :=
  (Part.regex tree).Everywhere (Part.Normal clean)

def UnionOf.IsNormal (clean : Prop) (u : ClassUnion) : Prop :=
  (Part.union u).Everywhere (Part.Normal clean)

/-- A member of a class, other than an intersection, all of whose parts are in normal form. -/
structure ClassElement.IsNormal (clean : Prop) (e : ClassElement) : Prop where
  inside : (Part.member e).Everywhere (Part.Normal clean)
  ne : ∀ operands s, e ≠ .intersection operands s

namespace ClassElement.IsNormal

theorem of_isSimple {e : ClassElement} (h : e.isSimple) : e.IsNormal clean := by
  have hleaf : ∀ part : Part, part.Normal clean → part.children = [] →
      part.Everywhere (Part.Normal clean) := fun part hp hc =>
    Part.everywhere_iff.mpr ⟨hp, by simp [hc]⟩
  refine ⟨Part.everywhere_iff.mpr ⟨trivial, ?_⟩, ?_⟩
  · simp only [Part.children, List.mem_singleton, forall_eq]
    cases e with
    | character c => exact hleaf _ trivial rfl
    | range r =>
      refine Part.everywhere_iff.mpr ⟨trivial, ?_⟩
      simp [Part.ofElement, Part.children, hleaf (.character _) trivial rfl]
    | escapedClass e => exact hleaf _ trivial rfl
    | posix p => exact hleaf _ trivial rfl
    | nested c => exact absurd h Bool.false_ne_true
    | intersection operands s => exact absurd h Bool.false_ne_true
  · rintro operands s rfl
    exact absurd h Bool.false_ne_true

theorem nested {c : CharacterClass} (h : c.union.IsNormal clean) :
    (ClassElement.nested c).IsNormal clean := by
  refine ⟨Part.everywhere_iff.mpr ⟨trivial, ?_⟩, nofun⟩
  simp only [Part.children, Part.ofElement, List.mem_singleton, forall_eq]
  exact Part.everywhere_iff.mpr ⟨trivial, by simpa [Part.children, UnionOf.IsNormal] using h⟩

end ClassElement.IsNormal

namespace UnionOf.IsNormal

theorem of_elements {u : ClassUnion} (h : ∀ e ∈ u.elements, e.IsNormal clean) :
    u.IsNormal clean := by
  refine Part.everywhere_iff.mpr ⟨fun operands s he => ((h _ he).ne _ _ rfl).elim, ?_⟩
  simpa [Part.children] using fun e he => (h e he).inside

theorem of_intersection {operands : List ClassUnion} {flags : Flags} {s s' : Span}
    (hlength : 2 ≤ operands.length) (h : ∀ u ∈ operands, u.IsNormal clean) :
    UnionOf.IsNormal clean ⟨[.intersection operands s], flags, s'⟩ := by
  have hinside : (Part.intersection operands s).Everywhere (Part.Normal clean) :=
    Part.everywhere_iff.mpr ⟨hlength, by simpa [Part.children, IsNormal] using h⟩
  have hmember : (Part.member (.intersection operands s)).Everywhere (Part.Normal clean) :=
    Part.everywhere_iff.mpr ⟨trivial, by simpa [Part.children, Part.ofElement] using hinside⟩
  refine Part.everywhere_iff.mpr ⟨?_, by simpa [Part.children] using hmember⟩
  intro operands' s₁ he
  rw [List.mem_singleton.mp he]

end UnionOf.IsNormal

namespace Regex.IsNormal

theorem ofRegex {tree : Regex} (h : tree.IsNormal clean) :
    (Part.ofRegex tree).Everywhere (Part.Normal clean) :=
  (Part.everywhere_iff.mp h).2 _ (.head _)

theorem iff_parts {tree : Regex} : tree.IsNormal clean ↔
    (Part.ofRegex tree).Normal clean ∧
      ∀ part ∈ (Part.ofRegex tree).children, part.Everywhere (Part.Normal clean) := by
  rw [← Part.everywhere_iff, IsNormal, Part.everywhere_iff]
  simp [Part.Normal, Part.children]

theorem of_leaf {tree : Regex} (h : (Part.ofRegex tree).children = [])
    (hself : (Part.ofRegex tree).Normal clean) : tree.IsNormal clean :=
  iff_parts.mpr ⟨hself, by simp [h]⟩

theorem of_isPlain {tree : Regex} (h : tree.isPlain) : tree.IsNormal clean := by
  unfold Regex.isPlain at h
  split at h
  · exact .of_leaf rfl trivial
  · exact .of_leaf rfl trivial
  · exact .of_leaf rfl trivial
  · exact .of_leaf rfl trivial
  · exact .of_leaf rfl trivial
  · exact .of_leaf rfl trivial
  · exact absurd h Bool.false_ne_true

theorem group {kind : GroupKind} {element : Option Regex} {s : Span}
    (h : ∀ t ∈ element, t.IsNormal clean) : (Regex.group kind element s).IsNormal clean :=
  iff_parts.mpr ⟨trivial, by simpa [Part.ofRegex, Part.children, IsNormal] using h⟩

theorem sequence {items : List Regex} {s : Span} (hlength : items.length ≠ 1)
    (h : ∀ t ∈ items, t.isItem ∧ t.IsNormal clean) : (Regex.sequence items s).IsNormal clean :=
  iff_parts.mpr ⟨⟨hlength, fun t ht => (h t ht).1⟩,
    by simpa [Part.ofRegex, Part.children, IsNormal] using fun t ht => (h t ht).2⟩

theorem disjunction {alternatives : List Regex} {s : Span} (hlength : 2 ≤ alternatives.length)
    (h : ∀ t ∈ alternatives, t.isAlternative ∧ t.IsNormal clean) :
    (Regex.disjunction alternatives s).IsNormal clean :=
  iff_parts.mpr ⟨⟨hlength, fun t ht => (h t ht).1⟩,
    by simpa [Part.ofRegex, Part.children, IsNormal] using fun t ht => (h t ht).2⟩

theorem of_disjunction {alternatives : List Regex} {s : Span}
    (h : (Regex.disjunction alternatives s).IsNormal clean) :
    2 ≤ alternatives.length ∧ ∀ t ∈ alternatives, t.isAlternative ∧ t.IsNormal clean := by
  obtain ⟨⟨hlength, hself⟩, hin⟩ := iff_parts.mp h
  exact ⟨hlength, fun t ht => ⟨hself t ht, hin _ (List.mem_map_of_mem ht)⟩⟩

theorem repetition {element : Regex} {quantifier : Quantifier} {s : Span}
    (hquantifier : clean → quantifier.Ordered) (hatom : element.isAtom)
    (h : element.IsNormal clean) : (Regex.repetition element quantifier s).IsNormal clean :=
  iff_parts.mpr ⟨⟨hatom, hquantifier⟩, by simpa [Part.ofRegex, Part.children, IsNormal] using h⟩

theorem conditional {condition : Condition} {yes : Regex} {no : Option Regex} {s : Span}
    (hcondition : ∀ part ∈ Part.ofCondition condition, part.Everywhere (Part.Normal clean))
    (h : ∀ t ∈ yes :: no.toList, t.isAlternative ∧ t.IsNormal clean) :
    (Regex.conditional condition yes no s).IsNormal clean := by
  refine iff_parts.mpr ⟨⟨fun t ht => (h t ht).1, ?_⟩, ?_⟩
  · cases condition with
    | reference text => simp [Part.ofCondition]
    | assertion behind negated element s =>
      exact fun part hpart => ⟨behind, negated, some element, s, List.mem_singleton.mp hpart⟩
  · simp only [Part.ofRegex, Part.children]
    refine List.forall_mem_append.mpr ⟨hcondition, ?_⟩
    simpa [IsNormal] using fun t ht => (h t ht).2

theorem characterClass {c : CharacterClass} (h : c.union.IsNormal clean) :
    (Regex.characterClass c).IsNormal clean :=
  iff_parts.mpr ⟨trivial, by simpa [Part.ofRegex, Part.children, UnionOf.IsNormal] using h⟩

end Regex.IsNormal

end PhpSyntax.Pattern
