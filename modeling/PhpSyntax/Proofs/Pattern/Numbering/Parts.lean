import PhpSyntax.Proofs.Pattern.Groups

namespace PhpSyntax.Pattern

def GroupKind.isCapturing : GroupKind → Bool
  | capturing .. => true
  | _ => false

namespace Part

def index? : Part → Option Nat
  | group (.capturing index _) _ _ => some index
  | _ => none

def indices (part : Part) : List Nat :=
  (part.visit fun _ => true).filterMap index?

theorem indices_eq (part : Part) :
    part.indices = part.index?.toList ++ part.children.flatMap indices := by
  rw [indices, visit_eq, if_pos rfl, List.filterMap_cons, List.filterMap_flatMap]
  cases part.index? <;> rfl

/-- A property that parts hand down to the parts inside them. -/
theorem everywhere_of_children {P : Part → Prop} (h : ∀ p, P p → ∀ c ∈ p.children, P c)
    {part : Part} (hp : P part) : part.Everywhere P := by
  induction part using visit.induct with
  | case1 part ih => exact everywhere_iff.mpr ⟨hp, fun c hc => ih c hc (h part hp c hc)⟩

def inClass : Part → Bool
  | character _ | escapedClass _ | characterClass _ | union _ | member _ | range _ | posix _
  | intersection .. => true
  | _ => false

theorem inClass_children {part : Part} (h : part.inClass) : ∀ c ∈ part.children, c.inClass := by
  cases part with
  | member e => cases e <;> simp [children, ofElement, inClass]
  | _ => simp_all [children, inClass]

end Part

def namesCapture : Option Char → Option Char → Bool
  | some '<', some '=' => false
  | some '<', some '!' => false
  | some '<', _ => true
  | some '\x27', _ => true
  | some 'P', some '<' => true
  | _, _ => false

theorem namesCapture_eq_false {c : Char} (d : Option Char) (hangle : c ≠ '<') (hquote : c ≠ '\x27')
    (hletter : c ≠ 'P') : namesCapture (some c) d = false := by
  unfold namesCapture
  split <;> grind

def opensCapture : List Char → Bool
  | '?' :: text => namesCapture text[0]? text[1]?
  | _ => true

/-- At the offset there is a parenthesis, which opens a capturing group or another. -/
def OpensAt (chars : List SourceChar) (start : Nat) (capturing : Bool) : Prop :=
  ∃ c rest, c :: rest <:+ chars ∧ c.char = '(' ∧ c.span.start = start ∧
    opensCapture (rest.map (·.char)) = capturing

def Part.OpensIn (chars : List SourceChar) : Part → Prop
  | group kind _ s => OpensAt chars s.start kind.isCapturing
  | _ => True

/-- The capturing groups of the parts have the numbers after `first`, up to `next`, and the groups
start with the parentheses for their kinds. -/
structure Numbered (chars : List SourceChar) (first : Nat) (parts : List Part) (next : Nat) :
    Prop where
  count : ∃ k, next = first + k ∧ parts.flatMap Part.indices = List.range' (first + 1) k
  opens : ∀ p ∈ parts, p.Everywhere (Part.OpensIn chars)

namespace Numbered

variable {chars : List SourceChar} {first mid next : Nat} {ps qs : List Part} {part : Part}

theorem nil (chars : List SourceChar) (first : Nat) : Numbered chars first [] first :=
  ⟨⟨0, rfl, rfl⟩, fun _ hp => absurd hp List.not_mem_nil⟩

theorem append (hp : Numbered chars first ps mid) (hq : Numbered chars mid qs next) :
    Numbered chars first (ps ++ qs) next := by
  obtain ⟨⟨k, rfl, hps⟩, hpo⟩ := hp
  obtain ⟨⟨l, rfl, hqs⟩, hqo⟩ := hq
  refine ⟨⟨k + l, by omega, ?_⟩, List.forall_mem_append.mpr ⟨hpo, hqo⟩⟩
  rw [List.flatMap_append, hps, hqs, ← List.range'_append_1, Nat.add_right_comm]

theorem around_iff (hindex : part.index? = none) (hopens : part.OpensIn chars) :
    Numbered chars first [part] next ↔ Numbered chars first part.children next := by
  have hindices : [part].flatMap Part.indices = part.children.flatMap Part.indices := by
    rw [List.flatMap_singleton, Part.indices_eq, hindex]
    rfl
  constructor
  · rintro ⟨hcount, ho⟩
    exact ⟨hindices ▸ hcount, (Part.everywhere_iff.mp (ho part (.head _))).2⟩
  · rintro ⟨hcount, ho⟩
    refine ⟨hindices ▸ hcount, List.forall_mem_singleton.mpr ?_⟩
    exact Part.everywhere_iff.mpr ⟨hopens, ho⟩

theorem regex_iff {tree : Regex} :
    Numbered chars first [.regex tree] next ↔ Numbered chars first [Part.ofRegex tree] next :=
  around_iff rfl trivial

/-- A regular expression that is no group is numbered as what is inside. -/
theorem node {tree : Regex} (hindex : (Part.ofRegex tree).index? = none)
    (hopens : (Part.ofRegex tree).OpensIn chars)
    (h : Numbered chars first (Part.ofRegex tree).children next) :
    Numbered chars first [.regex tree] next :=
  regex_iff.mpr ((around_iff hindex hopens).mpr h)

theorem of_node {tree : Regex} (h : Numbered chars first [.regex tree] next)
    (hindex : (Part.ofRegex tree).index? = none) (hopens : (Part.ofRegex tree).OpensIn chars) :
    Numbered chars first (Part.ofRegex tree).children next :=
  (around_iff hindex hopens).mp (regex_iff.mp h)

theorem leaf {tree : Regex} (h : tree.isLeaf) : Numbered chars first [.regex tree] first := by
  unfold Regex.isLeaf at h
  split at h
  · exact .node rfl trivial (.nil chars first)
  · exact .node rfl trivial (.nil chars first)
  · exact .node rfl trivial (.nil chars first)
  · exact .node rfl trivial (.nil chars first)
  · exact .node rfl trivial (.nil chars first)
  · exact absurd h Bool.false_ne_true

theorem leaves {trees : List Regex} (h : ∀ t ∈ trees, t.isLeaf) :
    Numbered chars first (trees.map .regex) first := by
  induction trees with
  | nil => exact nil chars first
  | cons t ts ih =>
    obtain ⟨ht, hts⟩ := List.forall_mem_cons.mp h
    exact (leaf ht).append (ih hts)

/-- There are no groups in classes. -/
theorem characterClass (c : CharacterClass) :
    Numbered chars first [.regex (.characterClass c)] first := by
  have hclass : (Part.characterClass c).Everywhere fun p => p.inClass :=
    Part.everywhere_of_children (fun p => Part.inClass_children) rfl
  have hnone : (Part.characterClass c).indices = [] := by
    refine List.filterMap_eq_nil_iff.mpr fun p hp => ?_
    have := hclass p hp
    cases p <;> simp_all [Part.inClass, Part.index?]
  refine regex_iff.mpr ⟨⟨0, rfl, by simp [Part.ofRegex, hnone]⟩, ?_⟩
  refine List.forall_mem_singleton.mpr fun p hp => ?_
  have := hclass p hp
  cases p <;> simp_all [Part.inClass, Part.OpensIn]

/-- A group that does not capture is numbered as what is inside. -/
theorem group {kind : GroupKind} {element : Option Regex} {s : Span} (hkind : kind.isCapturing = false)
    (hopens : OpensAt chars s.start false)
    (h : Numbered chars first (element.toList.map .regex) next) :
    Numbered chars first [.regex (.group kind element s)] next := by
  refine regex_iff.mpr ((around_iff ?_ ?_).mpr h)
  · cases kind with
    | capturing index name? => exact absurd hkind.symm Bool.false_ne_true
    | _ => rfl
  · change OpensAt chars s.start kind.isCapturing
    rwa [hkind]

/-- A capturing group has the number before those inside. -/
theorem capture {name? : Option String} {element : Regex} {s : Span}
    (hopens : OpensAt chars s.start true) (h : Numbered chars (first + 1) [.regex element] next) :
    Numbered chars first
      [.regex (.group (.capturing (first + 1) name?) (some element) s)] next := by
  obtain ⟨⟨k, rfl, hindices⟩, ho⟩ := h
  refine regex_iff.mpr ⟨⟨k + 1, by omega, ?_⟩, List.forall_mem_singleton.mpr ?_⟩
  · rw [List.flatMap_singleton, Part.indices_eq, List.range'_succ, ← hindices]
    rfl
  · exact Part.everywhere_iff.mpr ⟨hopens, ho⟩

end Numbered

end PhpSyntax.Pattern
