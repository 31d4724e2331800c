import PhpSyntax.Grammar.Operator
import PhpSyntax.Proofs.Tree.Inside
import PhpSyntax.Proofs.Tree.Tails
import PhpSyntax.Proofs.View.Layout

/-!
What is true of each tree that the grammar builds, whatever stands in it: the views of it find what
they expect, its operators bind as their levels say, and its branches belong to the last condition
that they can belong to.
-/

namespace PhpSyntax

namespace Kind

def isPrefix : Kind → Bool
  | .unaryMinus | .unaryPlus | .bitwiseComplement | .errorControl | .prefixIncrement
  | .prefixDecrement | .castExpression | .cloneExpression => true
  | _ => false

def isAssignment : Kind → Bool
  | .assignment | .assignmentByReference | .compoundAssignment => true
  | _ => false

def isOperator (k : Kind) : Bool :=
  k.isBinary || k = .conditionalExpression || k.isAssignment || k.isPrefix || k = .logicalComplement

/-- Whether trees of this kind can be the operand of an operator that stands before it: of the
operators between operands, only the power binds as strongly. -/
def isTight (k : Kind) : Bool :=
  (!k.isBinary || k = .power) && k ≠ .conditionalExpression

/-- The lowest level that the operand before an operator can have. Only the null coalescing
operator does not group to the left. -/
def leftLevel (k : Kind) (level : Nat) : Nat :=
  if k = .nullCoalescing then level + 1 else level

def rightLevel (k : Kind) (level : Nat) : Nat :=
  if k = .nullCoalescing then level else level + 1

def isViewed (k : Kind) : Bool :=
  k.isBinary || k.isClassLike || k.isImport || k = .functionCall || k = .functionExpression
    || k = .arrowFunctionExpression || k = .matchExpression

def isPlain (k : Kind) : Bool :=
  !(k.isOperator || k.isViewed || k = .ifStatement)

theorem level?_of_isTight {k : Kind} (h : k.isTight = true) : k.level? = none := by
  cases k <;> first | rfl | cases h

theorem isTight_of_level? {k : Kind} (h : k.level? = none) : k.isTight = true := by
  cases k <;> first | rfl | cases h

theorem isTight_of_isOperator {k : Kind} (h : k.isOperator = false) : k.isTight = true := by
  cases k <;> first | rfl | cases h

theorem eq_nullCoalescing {k : Kind} (h : k.level? = some 6) : k = .nullCoalescing := by
  cases k <;> first | rfl | cases h

theorem eq_instanceof {k : Kind} {level : Nat} (h : k.level? = some level) (hl : 18 ≤ level) :
    k = .instanceof := by
  cases k <;> first | rfl | (cases h <;> omega)

theorem others_of_level? {k : Kind} {level : Nat} (h : k.level? = some level) :
    k.isClassLike = false ∧ k.isImport = false ∧ k.isPrefix = false ∧ k.isAssignment = false := by
  cases k <;> first | exact ⟨rfl, rfl, rfl, rfl⟩ | cases h

theorem others_of_isPrefix {k : Kind} (h : k.isPrefix = true) :
    k.isViewed = false ∧ k.level? = none ∧ k ≠ .power ∧ k ≠ .logicalComplement ∧
      k.isAssignment = false := by
  revert h
  cases k <;> decide

theorem others_of_isAssignment {k : Kind} (h : k.isAssignment = true) :
    k.isViewed = false ∧ k.level? = none ∧ k ≠ .power ∧ k ≠ .logicalComplement ∧
      k.isPrefix = false := by
  revert h
  cases k <;> decide

end Kind

namespace Tree

/-- If an operator with a level made the tree, it binds at least as strongly as `level`. -/
def BindsFrom (tree : Tree) (level : Nat) : Prop :=
  ∀ l, tree.kind.level? = some l → level ≤ l

theorem bindsFrom_of_isTight {tree : Tree} (h : tree.kind.isTight = true) (level : Nat) :
    tree.BindsFrom level := by
  simp [BindsFrom, Kind.level?_of_isTight h]

def rightSlot (tree : Tree) : Nat :=
  if tree.kind = .conditionalExpression then 4 else 2

/-- The operands of an operator are there, and no operator in them, outside of parentheses, binds
less strongly than it. -/
structure Grouped (tree : Tree) : Prop where
  levels : ∀ level, tree.kind.level? = some level → ∃ left right, tree.child? 0 = some left ∧
    tree.child? tree.rightSlot = some right ∧ left.BindsFrom (tree.kind.leftLevel level) ∧
    right.BindsFrom (tree.kind.rightLevel level) := by exact nofun
  power : tree.kind = .power → ∃ base exponent, tree.child? 0 = some base ∧
    tree.child? 2 = some exponent ∧ base.kind.isOperator = false ∧
    exponent.kind.isTight = true := by exact nofun
  unary : tree.kind.isPrefix = true → ∃ operand, tree.child? 1 = some operand ∧
    operand.kind.isTight = true := by exact nofun
  negation : tree.kind = .logicalComplement → ∃ operand, tree.child? 1 = some operand ∧
    (operand.kind.isTight = true ∨ operand.kind = .instanceof) := by exact nofun
  assignment : tree.kind.isAssignment = true → ∃ target, tree.child? 0 = some target ∧
    Grammar.isAssignable target.kind = true := by exact nofun

structure Regular (tree : Tree) : Prop extends tree.Viewed, tree.Grouped where
  branches : tree.kind = .ifStatement → tree.Branched := by exact nofun

section Regular

variable {k : Kind} {left right condition operand base exponent target : Tree}
  {op : Token} {level : Nat}

theorem viewed_of_not_isViewed {tree : Tree} (h : tree.kind.isViewed = false) : tree.Viewed := by
  simp only [Kind.isViewed, Bool.or_eq_false_iff, decide_eq_false_iff_not] at h
  obtain ⟨⟨⟨⟨⟨⟨hbinary, hclass⟩, himport⟩, hcall⟩, hclosure⟩, harrow⟩, hchoice⟩ := h
  exact
    { call := fun hk => absurd hk hcall
      closure := fun hk => absurd hk hclosure
      arrow := fun hk => absurd hk harrow
      binary := fun hk => absurd hk (Bool.eq_false_iff.mp hbinary)
      choice := fun hk => absurd hk hchoice
      classLike := fun hk => absurd hk (Bool.eq_false_iff.mp hclass)
      imports := fun hk => absurd hk (Bool.eq_false_iff.mp himport) }

theorem regular_of_isPlain {tree : Tree} (h : tree.kind.isPlain = true) : tree.Regular := by
  simp only [Kind.isPlain, Bool.not_eq_true', Bool.or_eq_false_iff, decide_eq_false_iff_not] at h
  obtain ⟨⟨ho, hviewed⟩, hbranch⟩ := h
  have htight := Kind.isTight_of_isOperator ho
  simp only [Kind.isOperator, Bool.or_eq_false_iff, decide_eq_false_iff_not] at ho
  obtain ⟨⟨⟨⟨hbinary, -⟩, hassign⟩, hprefix⟩, hnot⟩ := ho
  exact
    { toViewed := viewed_of_not_isViewed hviewed
      levels := by simp [Kind.level?_of_isTight htight]
      power := fun hk => by simp [hk, Kind.isBinary] at hbinary
      unary := fun hk => absurd hk (Bool.eq_false_iff.mp hprefix)
      negation := fun hk => absurd hk hnot
      assignment := fun hk => absurd hk (Bool.eq_false_iff.mp hassign)
      branches := fun hk => absurd hk hbranch }

theorem laidOut_binary {left right : Tree} (h : k.isBinary = true) :
    BinaryExpression.LaidOut ⟨.node k [some left, some (.leaf .token op), some right], h⟩ where
  left := rfl
  operator := rfl
  right := rfl

/-- An operator with a level, but for the conditional one, whose operands bind as it demands. -/
theorem regular_binary (hk : k.level? = some level) (hc : k ≠ .conditionalExpression)
    (hl : left.BindsFrom (k.leftLevel level)) (hr : right.BindsFrom (k.rightLevel level)) :
    (node k [some left, some (.leaf .token op), some right]).Regular := by
  have hslot : (node k [some left, some (.leaf .token op), some right]).rightSlot = 2 := if_neg hc
  have absent : ∀ {k' : Kind}, k'.level? = none → k ≠ k' := by
    rintro k' h rfl
    rw [h] at hk
    cases hk
  obtain ⟨hclass, himport, hprefix, hassign⟩ := Kind.others_of_level? hk
  exact
    { call := fun h => absurd h (absent rfl)
      closure := fun h => absurd h (absent rfl)
      arrow := fun h => absurd h (absent rfl)
      binary := fun h => laidOut_binary h
      choice := fun h => absurd h (absent rfl)
      classLike := fun h => absurd h (Bool.eq_false_iff.mp hclass)
      imports := fun h => absurd h (Bool.eq_false_iff.mp himport)
      levels := by
        intro l h
        obtain rfl : level = l := by simpa [kind, hk] using h
        exact ⟨left, right, rfl, by rw [hslot]; rfl, hl, hr⟩
      power := fun h => absurd h (absent rfl)
      unary := fun h => absurd h (Bool.eq_false_iff.mp hprefix)
      negation := fun h => absurd h (absent rfl)
      assignment := fun h => absurd h (Bool.eq_false_iff.mp hassign)
      branches := fun h => absurd h (absent rfl) }

theorem regular_conditional {query colon consequent : Option Tree}
    (hl : condition.BindsFrom 5) (hr : right.BindsFrom 6) :
    (node .conditionalExpression [some condition, query, consequent, colon, some right]).Regular where
  levels := by
    rintro l ⟨⟩
    exact ⟨condition, right, rfl, rfl, hl, hr⟩

theorem regular_power (hb : base.kind.isOperator = false) (he : exponent.kind.isTight = true) :
    (node .power [some base, some (.leaf .token op), some exponent]).Regular where
  binary := fun h => laidOut_binary h
  power := fun _ => ⟨base, exponent, rfl, rfl, hb, he⟩

theorem regular_prefix {first : Option Tree} (hk : k.isPrefix = true)
    (ho : operand.kind.isTight = true) : (node k [first, some operand]).Regular := by
  obtain ⟨hviewed, hlevel, hpower, hnot, hassign⟩ := Kind.others_of_isPrefix hk
  exact
    { toViewed := viewed_of_not_isViewed hviewed
      levels := by simp [kind, hlevel]
      power := fun h => absurd h hpower
      unary := fun _ => ⟨operand, rfl, ho⟩
      negation := fun h => absurd h hnot
      assignment := fun h => absurd h (Bool.eq_false_iff.mp hassign)
      branches := by
        rintro ⟨⟩
        cases hk }

theorem regular_negation {first : Option Tree}
    (ho : operand.kind.isTight = true ∨ operand.kind = .instanceof) :
    (node .logicalComplement [first, some operand]).Regular where
  negation := fun _ => ⟨operand, rfl, ho⟩

theorem regular_assignment {rest : List (Option Tree)} (hk : k.isAssignment = true)
    (ht : Grammar.isAssignable target.kind = true) : (node k (some target :: rest)).Regular := by
  obtain ⟨hviewed, hlevel, hpower, hnot, hprefix⟩ := Kind.others_of_isAssignment hk
  exact
    { toViewed := viewed_of_not_isViewed hviewed
      levels := by simp [kind, hlevel]
      power := fun h => absurd h hpower
      unary := fun h => absurd h (Bool.eq_false_iff.mp hprefix)
      negation := fun h => absurd h hnot
      assignment := fun _ => ⟨target, rfl, ht⟩
      branches := by
        rintro ⟨⟩
        cases hk }

end Regular

end Tree

end PhpSyntax
