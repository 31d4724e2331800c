import PhpSyntax.Grammar.Function
import PhpSyntax.Proofs.Grammar.Shape.Combinators

namespace PhpSyntax.Grammar

open Production
open PhpSyntax.Tree (Shaped SlotShaped SlotsShaped ListOf IsWord IsSuffix IsParameters IsCapture InRow)

variable {r : Nested}

theorem argument_gives (hr : r.Shapes) :
    (argument r).Gives fun t => t.Shaped ∧ t.kind = .callArgument ∧ (t.child? 2).isSome := by
  refine .get fun c => ?_
  split
  · refine (leaf_gives rfl).bind fun label h₁ => ?_
    refine token_gives.bind fun colon h₂ => ?_
    refine hr.expression.bind fun value h₃ => ?_
    exact .pure ⟨.plain rfl (by simp [h₁.shaped, h₂, h₃]), rfl, rfl⟩
  split
  · refine token_gives.bind fun ellipsis h₁ => ?_
    refine hr.expression.bind fun value h₂ => ?_
    have h₃ : (Tree.node .spreadArgument [some ellipsis, some value]).Shaped :=
      .plain rfl (by simp [h₁, h₂])
    exact .pure ⟨.plain rfl (by simp [h₃]), rfl, rfl⟩
  · refine hr.expression.bind fun value h₁ => ?_
    exact .pure ⟨.plain rfl (by simp [h₁]), rfl, rfl⟩

theorem arguments_gives (hr : r.Shapes) :
    (arguments r).Gives fun t => t.Shaped ∧ t.IsSuffix := by
  refine (expect_gives _).bind fun left h₁ => .get fun c => ?_
  split
  · refine token_gives.bind fun ellipsis h₂ => ?_
    refine token_gives.bind fun right h₃ => ?_
    exact .pure ⟨.plain rfl (by simp [h₁, h₂, h₃]), .inl rfl⟩
  · refine (commaList_yields _ (fun _ h => h.1) (argument_gives hr)).bind fun list h₂ => ?_
    refine (expect_gives _).bind fun right h₃ => ?_
    refine .pure ⟨.plain rfl (by simp [h₁, h₂.shaped, h₃]), .inr ⟨rfl, ?_⟩⟩
    obtain ⟨es, hlist, hes⟩ := h₂.lists
    exact ⟨es, ⟨list, rfl, hlist⟩, fun e he => (hes e he).2⟩

theorem attributeUse_gives (hr : r.Shapes) : (attributeUse r).Gives Shaped := by
  refine name_gives.bind fun label h₁ => ?_
  refine (optional_gives _ ((arguments_gives hr).imp fun _ h => h.1)).bind fun args h₂ => ?_
  exact .pure (.plain rfl (by simp [h₁.shaped, h₂]))

theorem attributeGroup_gives (hr : r.Shapes) :
    (attributeGroup r).Gives fun t => t.Shaped ∧ t.kind = .attributeGroup := by
  refine token_gives.bind fun left h₁ => ?_
  refine (commaList_gives _ (attributeUse_gives hr)).bind fun list h₂ => ?_
  refine (expect_gives _).bind fun right h₃ => ?_
  exact .pure ⟨.plain rfl (by simp [h₁, h₂, h₃]), rfl⟩

def Attributes (t : Tree) : Prop :=
  t.Shaped ∧ ∃ es : List Tree, t = .node .plainList (es.map some) ∧
    ∀ e ∈ es, e.kind = .attributeGroup

theorem attributes_nil : Attributes (.node .plainList []) :=
  ⟨.plain rfl Tree.slotsShaped_nil, [], rfl, nofun⟩

theorem attributes_gives (hr : r.Shapes) : (attributes r).Gives Attributes := by
  refine (gatherTrees_gives (attributeGroup_gives hr)).bind fun slots h => .pure ?_
  refine ⟨h.plainList fun _ h => h.1, ?_⟩
  obtain ⟨es, rfl, hes⟩ := h
  exact ⟨es, rfl, fun e he => (hes e he).2⟩

theorem typeName_gives : typeName.Gives Shaped := by
  refine .get fun c => ?_
  split
  · exact .expected
  split
  · exact (leaf_gives rfl).imp fun _ h => h.shaped
  · exact name_gives.imp fun _ h => h.shaped

theorem typePairs_gives (hr : r.Shapes) (more : Cursor → Bool) :
    (gatherPairs more r.typeAtom).Gives SlotsShaped :=
  (gatherPairs_gives hr.typeAtom).imp fun _ h => h.shaped fun _ => id

theorem typeAtom_gives (hr : r.Shapes) : (typeAtom r).Gives Shaped := by
  refine .get fun c => ?_
  split
  · refine token_gives.bind fun left h₁ => ?_
    refine hr.typeAtom.bind fun first h₂ => ?_
    refine (typePairs_gives hr _).bind fun rest h₃ => ?_
    have h₄ : (Tree.node .intersectionType (some first :: rest)).Shaped :=
      .plain rfl (by simp [h₂, h₃])
    refine (expect_gives _).bind fun right h₅ => ?_
    exact .pure (.plain rfl (by simp [h₁, h₄, h₅]))
  · refine typeName_gives.bind fun label h₁ => ?_
    exact .pure (.plain rfl (by simp [h₁]))

theorem typeDeclaration_gives (hr : r.Shapes) : (typeDeclaration r).Gives Shaped := by
  refine .get fun c => ?_
  split
  · refine token_gives.bind fun query h₁ => ?_
    refine typeName_gives.bind fun label h₂ => ?_
    exact .pure (.plain rfl (by simp [h₁, h₂]))
  · refine (typeAtom_gives hr).bind fun first h₁ => .get fun c => ?_
    split
    · refine (typePairs_gives hr _).bind fun rest h₂ => ?_
      exact .pure (.plain rfl (by simp [h₁, h₂]))
    split
    · refine (typePairs_gives hr _).bind fun rest h₂ => ?_
      exact .pure (.plain rfl (by simp [h₁, h₂]))
    · exact .pure h₁

theorem returnTypeClause_gives (hr : r.Shapes) : (returnTypeClause r).Gives SlotShaped := by
  refine (eat_gives .colon).bind fun o h₁ => ?_
  cases o with
  | none => exact .pure h₁
  | some colon =>
    refine (typeDeclaration_gives hr).bind fun type h₂ => .pure ?_
    rw [Tree.slotShaped_some] at h₁
    exact Tree.slotShaped_some.mpr (.plain rfl (by simp [h₁, h₂]))

theorem defaultValue_gives (hr : r.Shapes) :
    (defaultValue r).Gives fun q => SlotShaped q.1 ∧ SlotShaped q.2 :=
  introduced_gives (eat_gives .equal) hr.expression

theorem parameter_gives (hr : r.Shapes) :
    (parameter r).Gives fun t => t.Shaped ∧ t.kind = .parameter := by
  refine (attributes_gives hr).bind fun attributes h₁ => ?_
  refine (modifiers_gives _).bind fun modifiers h₂ => ?_
  refine (optional_gives _ (typeDeclaration_gives hr)).bind fun declared h₃ => ?_
  refine (eat_gives .ampersand).bind fun byReference h₄ => ?_
  refine (eat_gives .ellipsis).bind fun ellipsis h₅ => ?_
  refine variableName_gives.bind fun variableName h₆ => ?_
  refine (defaultValue_gives hr).bind fun value h₇ => ?_
  exact .pure ⟨.plain rfl (by simp [h₁.1, h₂, h₃, h₄, h₅, h₆.shaped, h₇]), rfl⟩

theorem parameterList_gives (hr : r.Shapes) :
    (parameterList r).Gives fun t => t.Shaped ∧ t.IsParameters := by
  refine (expect_gives _).bind fun left h₁ => ?_
  refine (commaList_yields _ (fun _ h => h.1) (parameter_gives hr)).bind fun list h₂ => ?_
  refine (expect_gives _).bind fun right h₃ => ?_
  refine .pure ⟨.plain rfl (by simp [h₁, h₂.shaped, h₃]), ?_⟩
  obtain ⟨es, hlist, hes⟩ := h₂.lists
  exact ⟨es, ⟨list, rfl, hlist⟩, fun e he => (hes e he).2⟩

theorem functionDeclaration_gives (hr : r.Shapes) {attributes : Tree}
    (h : attributes.Shaped) : (functionDeclaration r attributes).Gives Shaped := by
  refine (expectKeyword_gives _).bind fun keyword h₁ => ?_
  refine (eat_gives .ampersand).bind fun byReference h₂ => ?_
  refine identifier_gives.bind fun label h₃ => ?_
  refine (parameterList_gives hr).bind fun parameters h₄ => ?_
  refine (returnTypeClause_gives hr).bind fun returnType h₅ => ?_
  refine (Nested.block_gives hr).bind fun body h₆ => ?_
  exact .pure (.plain rfl (by simp [h, h₁, h₂, h₃.shaped, h₄.1, h₅, h₆.1]))

theorem capturedVariable_gives : capturedVariable.Gives fun t =>
    t.Shaped ∧ (t.kind = .variableIdentifier ∨ t.kind = .referenceVariable) := by
  refine .get fun c => ?_
  split
  · refine token_gives.bind fun ampersand h₁ => ?_
    refine variableName_gives.bind fun variableName h₂ => ?_
    exact .pure ⟨.plain rfl (by simp [h₁, h₂.shaped]), .inr rfl⟩
  · refine variableName_yields.imp ?_
    rintro _ ⟨tok, rfl⟩
    exact ⟨.leaf rfl, .inl rfl⟩

theorem lexicalVariables_gives :
    lexicalVariables.Gives fun t => t.Shaped ∧ t.IsCapture := by
  refine token_gives.bind fun keyword h₁ => ?_
  refine (expect_gives _).bind fun left h₂ => ?_
  refine (commaList_yields _ (fun _ h => h.1) capturedVariable_gives).bind fun list h₃ => ?_
  refine (expect_gives _).bind fun right h₄ => ?_
  refine .pure ⟨.plain rfl (by simp [h₁, h₂, h₃.shaped, h₄]), ?_⟩
  obtain ⟨es, hlist, hes⟩ := h₃.lists
  exact ⟨es, ⟨list, rfl, hlist⟩, fun e he => (hes e he).2⟩

theorem arrowFunction_gives (hr : r.Shapes) {attributes : Tree} {modifier : Option Tree}
    (h : attributes.Shaped) (h' : SlotShaped modifier) :
    (arrowFunction r attributes modifier).Gives Tree.IsOperand := by
  refine token_gives.bind fun keyword h₁ => ?_
  refine (eat_gives .ampersand).bind fun byReference h₂ => ?_
  refine (parameterList_gives hr).bind fun parameters h₃ => ?_
  refine (returnTypeClause_gives hr).bind fun returnType h₄ => ?_
  refine (expect_gives _).bind fun arrow h₅ => ?_
  refine hr.expression.bind fun body h₆ => .pure ⟨.node ?_ ?_, rfl⟩
  · exact { arrow := fun _ => Tree.laidOut_arrowFunction h₃.2 }
  · simp [h, h', h₁, h₂, h₃.1, h₄, h₅, h₆]

theorem closure_gives (hr : r.Shapes) {attributes : Tree} (h : attributes.Shaped) :
    (closure r attributes).Gives Tree.IsOperand := by
  refine (eatKeyword_gives _).bind fun modifier h₁ => .get fun c => ?_
  split
  · exact arrowFunction_gives hr h h₁
  refine (expectKeyword_gives _).bind fun keyword h₂ => ?_
  refine (eat_gives .ampersand).bind fun byReference h₃ => ?_
  refine (parameterList_gives hr).bind fun parameters h₄ => ?_
  refine (optional_yields _ lexicalVariables_gives).bind fun captured h₅ => ?_
  refine (returnTypeClause_gives hr).bind fun returnType h₆ => ?_
  refine (Nested.block_gives hr).bind fun body h₇ => .pure ⟨.node ?_ ?_, rfl⟩
  · exact
      { closure := fun _ => Tree.laidOut_functionExpression h₄.2 (fun t ht => (h₅ t ht).2) h₇.2 }
  · have hcaptured : SlotShaped captured := fun t ht => (h₅ t ht).1
    simp [h, h₁, h₂, h₃, h₄.1, hcaptured, h₆, h₇.1]

end PhpSyntax.Grammar
