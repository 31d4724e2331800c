import PhpSyntax.Proofs.Tree.Sound
import PhpSyntax.Grammar.Cursor
import PhpSyntax.View.Declaration
import PhpSyntax.View.Expression
import PhpSyntax.View.Function

/-!
What a view relies on in the slots of its tree. A view asks for slots by their numbers; where a
tree is laid out as it expects, what it answers is there and is all there is.
-/

namespace PhpSyntax

namespace Tree

/-- The tree is a list with separators, and these are its elements, none of which is missing. -/
structure Lists (list : Tree) (es : List Tree) : Prop where
  kind_eq : list.kind = .separatedList
  evenItems_eq : evenItems list.slots = es.map some

def ListsAt (tree : Tree) (i : Nat) (es : List Tree) : Prop :=
  ∃ list, tree.child? i = some list ∧ list.Lists es

def RowAt (tree : Tree) (i : Nat) (es : List Tree) : Prop :=
  tree.child? i = some (.node .plainList (es.map some))

@[simp]
theorem filled_map_some (es : List Tree) : filled (es.map some) = es := by
  simp [filled, List.filterMap_map]

theorem Lists.elements_eq {list : Tree} {es : List Tree} (h : list.Lists es) :
    list.elements = es := by
  rw [elements, h.kind_eq, if_pos (by rfl), h.evenItems_eq, filled_map_some]

theorem ListsAt.elementsAt_eq {tree : Tree} {i : Nat} {es : List Tree} (h : tree.ListsAt i es) :
    tree.elementsAt i = es := by
  obtain ⟨list, hlist, hes⟩ := h
  simp [elementsAt, hlist, hes.elements_eq]

theorem RowAt.elementsAt_eq {tree : Tree} {i : Nat} {es : List Tree} (h : tree.RowAt i es) :
    tree.elementsAt i = es := by
  rw [RowAt] at h
  simp [elementsAt, h, elements, kind, Kind.isSeparated, PhpSyntax.Tree.slots]

end Tree

/-- The arguments of a call are all there, each with its value, unless the call has none because
it only names the function. -/
structure FunctionCall.LaidOut (call : FunctionCall) : Prop where
  callee : call.callee?.isSome
  suffix : call.tree.hasKindAt 1 .arguments ∨ call.isCallableConvert
  arguments : call.tree.hasKindAt 1 .arguments → ∃ args, call.tree.child? 1 = some args ∧
    args.ListsAt 1 (call.arguments.map (·.tree))
  values : ∀ a ∈ call.arguments, a.value?.isSome

structure FunctionExpression.LaidOut (f : FunctionExpression) : Prop where
  body : ∃ body, f.body? = some body ∧ body.kind = .block
  parameters : ∃ list, f.tree.child? 4 = some list ∧ list.ListsAt 1 f.parameters
  parameterKinds : ∀ p ∈ f.parameters, p.kind = .parameter
  captured : ∀ clause, f.lexicalVariables? = some clause → clause.ListsAt 2 f.captured
  capturedKinds : ∀ v ∈ f.captured, v.kind = .variableIdentifier ∨ v.kind = .referenceVariable

structure ArrowFunction.LaidOut (f : ArrowFunction) : Prop where
  body : f.body?.isSome
  parameters : ∃ list, f.tree.child? 4 = some list ∧ list.ListsAt 1 f.parameters
  parameterKinds : ∀ p ∈ f.parameters, p.kind = .parameter

structure BinaryExpression.LaidOut (e : BinaryExpression) : Prop where
  left : e.left?.isSome
  operator : e.operator?.isSome
  right : e.right?.isSome

structure MatchExpression.LaidOut (m : MatchExpression) : Prop where
  subject : m.subject?.isSome
  arms : m.tree.ListsAt 5 m.arms
  armKinds : ∀ arm ∈ m.arms, arm.kind = .matchConditionClause ∨ arm.kind = .matchDefaultClause

def Kind.isMember : Kind → Bool
  | .useTraitDeclaration | .enumCase | .classConstantDeclaration | .methodDeclaration
  | .classPropertyDeclaration => true
  | _ => false

/-- A class and its kin have a name, and the members are what stands in the braces at their end. -/
structure ClassLike.LaidOut (c : ClassLike) : Prop where
  name : c.name?.isSome
  attributes : c.tree.RowAt 0 c.attributes
  attributeKinds : ∀ a ∈ c.attributes, a.kind = .attributeGroup
  members : ∃ before left right, c.tree.slots = before ++ [some (.leaf .token left),
      some (.node .plainList (c.members.map some)), some (.leaf .token right)] ∧
    left.isPunctuator .leftCurlyBrace ∧ right.isPunctuator .rightCurlyBrace
  memberKinds : ∀ m ∈ c.members, m.kind.isMember

def UseStatement.fullName? (u : UseStatement) (clause : Tree) : Option String :=
  (clause.textAt? 1).map fun name =>
    match u.groupNamespace? with
    | some group => group ++ "\\" ++ name
    | none => name

/-- The list of an import holds clauses, and each has a name, to which the namespace of a group is
added. -/
structure UseStatement.LaidOut (u : UseStatement) : Prop where
  clauses : u.tree.ListsAt (if u.isGroup then 5 else 2) u.clauses
  clauseKinds : ∀ clause ∈ u.clauses, clause.kind = .useClause
  group : u.isGroup → u.groupNamespace?.isSome
  names : u.clauses.map u.fullName? = u.importedNames.map some

structure Tree.Viewed (tree : Tree) : Prop where
  call : ∀ h, FunctionCall.LaidOut ⟨tree, h⟩ := by exact nofun
  closure : ∀ h, FunctionExpression.LaidOut ⟨tree, h⟩ := by exact nofun
  arrow : ∀ h, ArrowFunction.LaidOut ⟨tree, h⟩ := by exact nofun
  binary : ∀ h, BinaryExpression.LaidOut ⟨tree, h⟩ := by exact nofun
  choice : ∀ h, MatchExpression.LaidOut ⟨tree, h⟩ := by exact nofun
  classLike : ∀ h, ClassLike.LaidOut ⟨tree, h⟩ := by exact nofun
  imports : ∀ h, UseStatement.LaidOut ⟨tree, h⟩ := by exact nofun

namespace Tree

/-- What follows the function in a call: arguments with values, or the dots that stand for none. -/
def IsSuffix (tree : Tree) : Prop :=
  tree.kind = .callableConvert ∨ tree.kind = .arguments ∧
    ∃ es, tree.ListsAt 1 es ∧ ∀ e ∈ es, e.kind = .callArgument ∧ (e.child? 2).isSome

theorem filterMap_ofTree {es : List Tree} (h : ∀ e ∈ es, e.kind = .callArgument) :
    (es.filterMap CallArgument.ofTree?).map (·.tree) = es := by
  induction es with
  | nil => rfl
  | cons e es ih =>
    rw [List.forall_mem_cons] at h
    have he : CallArgument.ofTree? e = some ⟨e, h.1⟩ := dif_pos h.1
    rw [List.filterMap_cons_some he, List.map_cons, ih h.2]

theorem laidOut_functionCall {callee suffix : Tree} (h : suffix.IsSuffix) :
    FunctionCall.LaidOut ⟨.node .functionCall [some callee, some suffix], rfl⟩ := by
  obtain hs | ⟨hs, es, hlist, hes⟩ := h
  · have hnone : suffix.kind ≠ .arguments := by simp [hs]
    exact
      { callee := rfl
        suffix := .inr (by simpa [FunctionCall.isCallableConvert, hasKindAt, child?, slots] using hs)
        arguments := by simp [hasKindAt, child?, slots, hnone]
        values := by simp [FunctionCall.arguments, child?, slots, hnone] }
  · have hargs : FunctionCall.arguments ⟨.node .functionCall [some callee, some suffix], rfl⟩ =
        es.filterMap CallArgument.ofTree? := by
      simp [FunctionCall.arguments, child?, slots, hs, hlist.elementsAt_eq]
    have htrees := filterMap_ofTree fun e he => (hes e he).1
    exact
      { callee := rfl
        suffix := .inl (by simpa [hasKindAt, child?, slots] using hs)
        arguments := fun _ => ⟨suffix, rfl, by rwa [hargs, htrees]⟩
        values := by
          intro a ha
          rw [hargs] at ha
          have hmem : a.tree ∈ es := htrees ▸ List.mem_map_of_mem ha
          exact (hes a.tree hmem).2 }

def IsParameters (tree : Tree) : Prop :=
  ∃ ps, tree.ListsAt 1 ps ∧ ∀ p ∈ ps, p.kind = .parameter

def IsCapture (tree : Tree) : Prop :=
  ∃ vs, tree.ListsAt 2 vs ∧
    ∀ v ∈ vs, v.kind = .variableIdentifier ∨ v.kind = .referenceVariable

theorem laidOut_functionExpression {attributes modifier keyword byReference captured result :
      Option Tree} {parameters body : Tree} (hparameters : parameters.IsParameters)
    (hcaptured : ∀ clause ∈ captured, clause.IsCapture) (hbody : body.kind = .block) :
    FunctionExpression.LaidOut ⟨.node .functionExpression [attributes, modifier, keyword,
      byReference, some parameters, captured, result, some body], rfl⟩ := by
  obtain ⟨ps, hps, hkinds⟩ := hparameters
  refine
    { body := ⟨body, rfl, hbody⟩
      parameters := ⟨parameters, rfl, ?_⟩
      parameterKinds := ?_
      captured := ?_
      capturedKinds := ?_ }
  · simpa [FunctionExpression.parameters, parametersAt, child?, slots, hps.elementsAt_eq] using hps
  · simpa [FunctionExpression.parameters, parametersAt, child?, slots, hps.elementsAt_eq]
      using hkinds
  · rintro clause hclause
    obtain rfl : captured = some clause := hclause
    obtain ⟨vs, hvs, -⟩ := hcaptured clause rfl
    simpa [FunctionExpression.captured, FunctionExpression.lexicalVariables?, child?, slots,
      hvs.elementsAt_eq] using hvs
  · cases captured with
    | none => simp [FunctionExpression.captured, FunctionExpression.lexicalVariables?, child?, slots]
    | some clause =>
      obtain ⟨vs, hvs, hkinds⟩ := hcaptured clause rfl
      simpa [FunctionExpression.captured, FunctionExpression.lexicalVariables?, child?, slots,
        hvs.elementsAt_eq] using hkinds

theorem laidOut_arrowFunction {attributes modifier keyword byReference result arrow : Option Tree}
    {parameters body : Tree} (hparameters : parameters.IsParameters) :
    ArrowFunction.LaidOut ⟨.node .arrowFunctionExpression [attributes, modifier, keyword,
      byReference, some parameters, result, arrow, some body], rfl⟩ := by
  obtain ⟨ps, hps, hkinds⟩ := hparameters
  refine { body := rfl, parameters := ⟨parameters, rfl, ?_⟩, parameterKinds := ?_ }
  · simpa [ArrowFunction.parameters, parametersAt, child?, slots, hps.elementsAt_eq] using hps
  · simpa [ArrowFunction.parameters, parametersAt, child?, slots, hps.elementsAt_eq] using hkinds

theorem laidOut_matchExpression {keyword left right leftBrace rightBrace : Option Tree}
    {subject arms : Tree} {es : List Tree} (harms : arms.Lists es)
    (hkinds : ∀ e ∈ es, e.kind = .matchConditionClause ∨ e.kind = .matchDefaultClause) :
    MatchExpression.LaidOut ⟨.node .matchExpression [keyword, left, some subject, right, leftBrace,
      some arms, rightBrace], rfl⟩ := by
  have hes : (Tree.node .matchExpression [keyword, left, some subject, right, leftBrace, some arms,
      rightBrace]).ListsAt 5 es := ⟨arms, rfl, harms⟩
  exact
    { subject := rfl
      arms := by rwa [MatchExpression.arms, hes.elementsAt_eq]
      armKinds := by rwa [MatchExpression.arms, hes.elementsAt_eq] }

structure EndsInBody (tree : Tree) (ms : List Tree) : Prop where
  slots_eq : ∃ before left right, tree.slots = before ++ [some (.leaf .token left),
      some (.node .plainList (ms.map some)), some (.leaf .token right)] ∧
    left.isPunctuator .leftCurlyBrace ∧ right.isPunctuator .rightCurlyBrace
  kinds : ∀ m ∈ ms, m.kind.isMember

theorem EndsInBody.rowAt {tree : Tree} {ms : List Tree} (h : tree.EndsInBody ms) :
    tree.RowAt (tree.slots.length - 2) ms := by
  obtain ⟨before, left, right, hslots, -⟩ := h.slots_eq
  simp [RowAt, child?, hslots]

theorem laidOut_classLike {tree : Tree} {as ms : List Tree} (h : tree.kind.isClassLike = true)
    (hname : (ClassLike.name? ⟨tree, h⟩).isSome) (has : tree.RowAt 0 as)
    (hkinds : ∀ a ∈ as, a.kind = .attributeGroup) (hms : tree.EndsInBody ms) :
    ClassLike.LaidOut ⟨tree, h⟩ where
  name := hname
  attributes := by rwa [ClassLike.attributes, has.elementsAt_eq]
  attributeKinds := by rwa [ClassLike.attributes, has.elementsAt_eq]
  members := by
    rw [ClassLike.members, hms.rowAt.elementsAt_eq]
    exact hms.slots_eq
  memberKinds := by
    rw [ClassLike.members, hms.rowAt.elementsAt_eq]
    exact hms.kinds

def IsClause (tree : Tree) : Prop :=
  tree.kind = .useClause ∧ (tree.textAt? 1).isSome

theorem importedNames_eq (u : UseStatement) (h : ∀ clause ∈ u.clauses, clause.IsClause) :
    u.clauses.map u.fullName? = u.importedNames.map some := by
  unfold UseStatement.importedNames
  generalize u.clauses = clauses at h ⊢
  induction clauses with
  | nil => rfl
  | cons clause clauses ih =>
    rw [List.forall_mem_cons] at h
    obtain ⟨label, hlabel⟩ := Option.isSome_iff_exists.mp h.1.2
    rw [List.map_cons, ih h.2, UseStatement.fullName?, List.filterMap_cons, hlabel]
    rfl

theorem laidOut_import {tree : Tree} {es : List Tree} (h : tree.kind.isImport = true)
    (hgroup : UseStatement.isGroup ⟨tree, h⟩ = true → (UseStatement.groupNamespace? ⟨tree, h⟩).isSome)
    (hlist : tree.ListsAt (if UseStatement.isGroup ⟨tree, h⟩ then 5 else 2) es)
    (hes : ∀ e ∈ es, e.IsClause) : UseStatement.LaidOut ⟨tree, h⟩ := by
  have hclauses : UseStatement.clauses ⟨tree, h⟩ = es := hlist.elementsAt_eq
  exact
    { clauses := by rwa [hclauses]
      clauseKinds := by
        rw [hclauses]
        exact fun e he => (hes e he).1
      group := hgroup
      names := importedNames_eq _ (by rwa [hclauses]) }

end Tree

end PhpSyntax
