import PhpSyntax.Grammar.Declaration
import PhpSyntax.Proofs.Grammar.Shape.Functions

namespace PhpSyntax.Grammar

open Production
open PhpSyntax.Tree (Shaped SlotShaped SlotsShaped IsWord IsClause ListOf laidOut_classLike laidOut_import)

variable {r : Nested}

theorem constantAssignment_gives (hr : r.Shapes) : (constantAssignment r).Gives Shaped := by
  refine identifier_gives.bind fun label h₁ => ?_
  refine (expect_gives _).bind fun equal h₂ => ?_
  refine hr.expression.bind fun value h₃ => ?_
  exact .pure (.plain rfl (by simp [h₁.shaped, h₂, h₃]))

theorem initialisedVariable_gives (hr : r.Shapes) : (initialisedVariable r).Gives Shaped := by
  refine variableName_gives.bind fun variableName h₁ => ?_
  refine (defaultValue_gives hr).bind fun value h₂ => ?_
  exact .pure (.plain rfl (by simp [h₁.shaped, h₂]))

theorem traitMethodReference_gives : traitMethodReference.Gives Shaped := by
  refine .get fun c => ?_
  split
  · refine name_gives.bind fun traitName h₁ => ?_
    refine token_gives.bind fun colons h₂ => ?_
    refine identifier_gives.bind fun label h₃ => ?_
    exact .pure (.plain rfl (by simp [h₁.shaped, h₂, h₃.shaped]))
  · refine identifier_gives.bind fun label h₁ => ?_
    exact .pure (.plain rfl (by simp [h₁.shaped]))

theorem traitAdaptation_gives : traitAdaptation.Gives Shaped := by
  refine traitMethodReference_gives.bind fun reference h₁ => ?_
  refine (eatKeyword_gives _).bind fun o h₂ => ?_
  cases o with
  | some insteadof =>
    rw [Tree.slotShaped_some] at h₂
    refine nameList_gives.bind fun names h₃ => ?_
    refine statementEnd_gives.bind fun close h₄ => ?_
    exact .pure (.plain rfl (by simp [h₁, h₂, h₃, h₄]))
  | none =>
    refine (expectKeyword_gives _).bind fun asKeyword h₃ => ?_
    refine (eatIf_gives _).bind fun modifier h₄ => ?_
    refine (optional_gives _ (identifier_gives.imp fun _ h => h.shaped)).bind fun other h₅ => ?_
    refine statementEnd_gives.bind fun close h₆ => ?_
    exact .pure (.plain rfl (by simp [h₁, h₃, h₄, h₅, h₆]))

structure Member (t : Tree) : Prop where
  shaped : t.Shaped
  kind : t.kind.isMember = true

theorem useTraitDeclaration_gives : useTraitDeclaration.Gives Member := by
  refine token_gives.bind fun keyword h₁ => ?_
  refine nameList_gives.bind fun traits h₂ => .get fun c => ?_
  split
  · refine statementEnd_gives.bind fun close h₃ => ?_
    exact .pure ⟨.plain rfl (by simp [h₁, h₂, h₃]), rfl⟩
  · refine token_gives.bind fun left h₃ => ?_
    refine (plainList_gives traitAdaptation_gives).bind fun adaptations h₄ => ?_
    refine (expect_gives _).bind fun right h₅ => ?_
    exact .pure ⟨.plain rfl (by simp [h₁, h₂, h₃, h₄, h₅]), rfl⟩

theorem enumCase_gives (hr : r.Shapes) {attributes : Tree} (h : attributes.Shaped) :
    (enumCase r attributes).Gives Member := by
  refine token_gives.bind fun keyword h₁ => ?_
  refine identifier_gives.bind fun label h₂ => ?_
  refine (defaultValue_gives hr).bind fun value h₃ => ?_
  refine statementEnd_gives.bind fun close h₄ => ?_
  exact .pure ⟨.plain rfl (by simp [h, h₁, h₂.shaped, h₃, h₄]), rfl⟩

theorem classConstant_gives (hr : r.Shapes) {attributes modifiers : Tree}
    (h : attributes.Shaped) (h' : modifiers.Shaped) :
    (classConstant r attributes modifiers).Gives Member := by
  refine token_gives.bind fun keyword h₁ => ?_
  refine (optional_gives _ (typeDeclaration_gives hr)).bind fun declared h₂ => ?_
  refine (commaList_gives _ (constantAssignment_gives hr)).bind fun list h₃ => ?_
  refine statementEnd_gives.bind fun close h₄ => ?_
  exact .pure ⟨.plain rfl (by simp [h, h', h₁, h₂, h₃, h₄]), rfl⟩

theorem methodDeclaration_gives (hr : r.Shapes) {attributes modifiers : Tree}
    (h : attributes.Shaped) (h' : modifiers.Shaped) :
    (methodDeclaration r attributes modifiers).Gives Member := by
  refine token_gives.bind fun keyword h₁ => ?_
  refine (eat_gives .ampersand).bind fun byReference h₂ => ?_
  refine identifier_gives.bind fun label h₃ => ?_
  refine (parameterList_gives hr).bind fun parameters h₄ => ?_
  refine (returnTypeClause_gives hr).bind fun returnType h₅ => .get fun c => ?_
  split
  · refine statementEnd_gives.bind fun body h₆ => ?_
    exact .pure ⟨.plain rfl (by simp [h, h', h₁, h₂, h₃.shaped, h₄.1, h₅, h₆]), rfl⟩
  · refine (Nested.block_gives hr).bind fun body h₆ => ?_
    exact .pure ⟨.plain rfl (by simp [h, h', h₁, h₂, h₃.shaped, h₄.1, h₅, h₆.1]), rfl⟩

theorem propertyDeclaration_gives (hr : r.Shapes) {attributes modifiers : Tree}
    (h : attributes.Shaped) (h' : modifiers.Shaped) :
    (propertyDeclaration r attributes modifiers).Gives Member := by
  refine (optional_gives _ (typeDeclaration_gives hr)).bind fun declared h₁ => ?_
  refine (commaList_gives _ (initialisedVariable_gives hr)).bind fun list h₂ => ?_
  refine statementEnd_gives.bind fun close h₃ => ?_
  exact .pure ⟨.plain rfl (by simp [h, h', h₁, h₂, h₃]), rfl⟩

theorem classMember_gives (hr : r.Shapes) : (classMember r).Gives Member := by
  refine .get fun c => ?_
  split
  · exact useTraitDeclaration_gives
  refine (attributes_gives hr).bind fun attributes h₁ => .get fun c => ?_
  split
  · exact enumCase_gives hr h₁.1
  refine (modifiers_gives _).bind fun modifiers h₂ => .get fun c => ?_
  split
  · exact classConstant_gives hr h₁.1 h₂
  split
  · exact methodDeclaration_gives hr h₁.1 h₂
  · exact propertyDeclaration_gives hr h₁.1 h₂

namespace ClassBody

structure Holds (b : ClassBody) (ms : List Tree) : Prop where
  left : ∃ tok, b.left = .leaf .token tok ∧ tok.isPunctuator .leftCurlyBrace = true
  members : b.members = .node .plainList (ms.map some)
  right : ∃ tok, b.right = .leaf .token tok ∧ tok.isPunctuator .rightCurlyBrace = true
  each : ∀ m ∈ ms, Member m

variable {b : ClassBody} {ms : List Tree}

theorem Holds.shaped (h : b.Holds ms) : b.left.Shaped ∧ b.members.Shaped ∧ b.right.Shaped := by
  obtain ⟨left, hleft, -⟩ := h.left
  obtain ⟨right, hright, -⟩ := h.right
  rw [hleft, h.members, hright]
  exact ⟨.leaf rfl, .plain rfl (Tree.slotsShaped_map_some fun m hm => (h.each m hm).shaped),
    .leaf rfl⟩

theorem Holds.endsInBody (h : b.Holds ms) (k : Kind) (before : List (Option Tree)) :
    (Tree.node k (before ++ [some b.left, some b.members, some b.right])).EndsInBody ms where
  slots_eq := by
    obtain ⟨left, hleft, hl⟩ := h.left
    obtain ⟨right, hright, hr⟩ := h.right
    exact ⟨before, left, right, by rw [hleft, h.members, hright, Tree.slots], hl, hr⟩
  kinds m hm := (h.each m hm).kind

end ClassBody

theorem classBody_gives (hr : r.Shapes) : (classBody r).Gives fun b => ∃ ms, b.Holds ms := by
  refine (expect_yields _).bind fun left h₁ => ?_
  refine (gatherTrees_gives (classMember_gives hr)).bind fun members h₂ => ?_
  refine (expect_yields _).bind fun right h₃ => .pure ?_
  obtain ⟨ms, rfl, hms⟩ := h₂
  exact ⟨ms, h₁, rfl, h₃, hms⟩

theorem extendsClause_gives : extendsClause.Gives fun q => SlotShaped q.1 ∧ SlotShaped q.2 :=
  introduced_gives (eatKeyword_gives _) (name_gives.imp fun _ h => h.shaped)

theorem implementsClause_gives :
    implementsClause.Gives fun q => SlotShaped q.1 ∧ SlotShaped q.2 :=
  introduced_gives (eatKeyword_gives _) nameList_gives

theorem anonymousClass_gives (hr : r.Shapes) : (anonymousClass r).Gives Shaped := by
  refine (attributes_gives hr).bind fun attributes h₁ => ?_
  refine (expectKeyword_gives _).bind fun keyword h₂ => ?_
  refine (optional_gives _ ((arguments_gives hr).imp fun _ h => h.1)).bind fun arguments h₃ => ?_
  refine extendsClause_gives.bind fun parent h₄ => ?_
  refine implementsClause_gives.bind fun interfaces h₅ => ?_
  refine (classBody_gives hr).bind fun body h₆ => ?_
  obtain ⟨ms, hms⟩ := h₆
  exact .pure (.plain rfl (by simp [h₁.1, h₂, h₃, h₄, h₅, hms.shaped]))

theorem namespaceStatement_gives (hr : r.Shapes) : (namespaceStatement r).Gives Shaped := by
  refine token_gives.bind fun keyword h₁ => ?_
  refine (optional_gives _ (name_gives.imp fun _ h => h.shaped)).bind fun label h₂ =>
    .get fun c => ?_
  split
  · refine token_gives.bind fun left h₃ => ?_
    refine (Nested.statements_gives hr _).bind fun body h₄ => ?_
    refine (expect_gives _).bind fun right h₅ => ?_
    exact .pure (.plain rfl (by simp [h₁, h₂, h₃, h₄, h₅]))
  · refine statementEnd_gives.bind fun close h₃ => ?_
    exact .pure (.plain rfl (by simp [h₁, h₂, h₃]))

theorem useClause_gives {importType : Option Tree} {label : Tree} (h : SlotShaped importType)
    (hl : label.IsWord) :
    (useClause importType label).Gives fun t => t.Shaped ∧ t.IsClause := by
  refine (introduced_gives (eatKeyword_gives _) (identifier_gives.imp fun _ h => h.shaped)).bind
    fun other h₁ => ?_
  refine .pure ⟨.plain rfl (by simp [h, hl.shaped, h₁]), rfl, ?_⟩
  obtain ⟨k, tok, rfl, -⟩ := hl
  rfl

theorem plainUseClause_gives : plainUseClause.Gives fun t => t.Shaped ∧ t.IsClause :=
  name_gives.bind fun _ => useClause_gives Tree.slotShaped_none

theorem typedUseClause_gives : typedUseClause.Gives fun t => t.Shaped ∧ t.IsClause :=
  (eatIf_gives _).bind fun _ h => name_gives.bind fun _ => useClause_gives h

theorem useStatement_gives : useStatement.Gives Shaped := by
  refine token_gives.bind fun keyword h₁ => ?_
  refine (eatIf_gives _).bind fun kind h₂ => ?_
  refine name_gives.bind fun first h₃ => .get fun c => ?_
  have shaped : ∀ t : Tree, t.Shaped ∧ t.IsClause → t.Shaped := fun _ h => h.1
  split
  · refine token_gives.bind fun separator h₄ => ?_
    refine token_gives.bind fun left h₅ => ?_
    refine (commaList_yields _ shaped typedUseClause_gives).bind fun clauses h₆ => ?_
    refine (expect_gives _).bind fun right h₇ => ?_
    refine statementEnd_gives.bind fun close h₈ => .pure (.node ?_ ?_)
    · obtain ⟨es, hlist, hes⟩ := h₆.lists
      obtain ⟨k, tok, rfl, -⟩ := h₃
      exact
        { imports := fun h => laidOut_import h (fun _ => rfl) ⟨clauses, rfl, hlist⟩
            fun e he => (hes e he).2 }
    · simp [h₁, h₂, h₃.shaped, h₄, h₅, h₆.shaped, h₇, h₈]
  · refine (useClause_gives Tree.slotShaped_none h₃).bind fun clause h₄ => ?_
    refine (gatherPairs_gives plainUseClause_gives).bind fun rest h₅ => ?_
    refine statementEnd_gives.bind fun close h₆ => ?_
    have h₇ := h₅.listOf shaped h₄
    refine .pure (.node ?_ ?_)
    · obtain ⟨es, hlist, hes⟩ := h₇.lists
      exact
        { imports := fun h => laidOut_import h nofun ⟨_, rfl, hlist⟩ fun e he => (hes e he).2 }
    · simp [h₁, h₂, h₆, h₇.shaped]

theorem constantDeclaration_gives (hr : r.Shapes) : (constantDeclaration r).Gives Shaped := by
  refine token_gives.bind fun keyword h₁ => ?_
  refine (commaList_gives _ (constantAssignment_gives hr)).bind fun list h₂ => ?_
  refine statementEnd_gives.bind fun close h₃ => ?_
  exact .pure (.plain rfl (by simp [h₁, h₂, h₃]))

theorem classDeclaration_gives (hr : r.Shapes) {attributes : Tree} (h : Attributes attributes) :
    (classDeclaration r attributes).Gives Shaped := by
  refine (modifiers_gives _).bind fun modifiers h₁ => ?_
  refine (expectKeyword_gives _).bind fun keyword h₂ => ?_
  refine identifier_gives.bind fun label h₃ => ?_
  refine extendsClause_gives.bind fun parent h₄ => ?_
  refine implementsClause_gives.bind fun interfaces h₅ => ?_
  refine (classBody_gives hr).bind fun body h₆ => .pure ?_
  obtain ⟨ms, hms⟩ := h₆
  refine .node ?_ (by simp [h.1, h₁, h₂, h₃.shaped, h₄, h₅, hms.shaped])
  obtain ⟨-, as, rfl, has⟩ := h
  obtain ⟨k, tok, rfl, -⟩ := h₃
  exact
    { classLike := fun h => laidOut_classLike h rfl rfl has
        (hms.endsInBody _ [_, _, _, _, _, _, _, _]) }

theorem interfaceDeclaration_gives (hr : r.Shapes) {attributes : Tree}
    (h : Attributes attributes) : (interfaceDeclaration r attributes).Gives Shaped := by
  refine token_gives.bind fun keyword h₁ => ?_
  refine identifier_gives.bind fun label h₂ => ?_
  refine (introduced_gives (eatKeyword_gives _) nameList_gives).bind fun parents h₃ => ?_
  refine (classBody_gives hr).bind fun body h₄ => .pure ?_
  obtain ⟨ms, hms⟩ := h₄
  refine .node ?_ (by simp [h.1, h₁, h₂.shaped, h₃, hms.shaped])
  obtain ⟨-, as, rfl, has⟩ := h
  obtain ⟨k, tok, rfl, -⟩ := h₂
  exact
    { classLike := fun h => laidOut_classLike h rfl rfl has
        (hms.endsInBody _ [_, _, _, _, _]) }

theorem traitDeclaration_gives (hr : r.Shapes) {attributes : Tree} (h : Attributes attributes) :
    (traitDeclaration r attributes).Gives Shaped := by
  refine token_gives.bind fun keyword h₁ => ?_
  refine identifier_gives.bind fun label h₂ => ?_
  refine (classBody_gives hr).bind fun body h₃ => .pure ?_
  obtain ⟨ms, hms⟩ := h₃
  refine .node ?_ (by simp [h.1, h₁, h₂.shaped, hms.shaped])
  obtain ⟨-, as, rfl, has⟩ := h
  obtain ⟨k, tok, rfl, -⟩ := h₂
  exact
    { classLike := fun h => laidOut_classLike h rfl rfl has (hms.endsInBody _ [_, _, _]) }

theorem enumDeclaration_gives (hr : r.Shapes) {attributes : Tree} (h : Attributes attributes) :
    (enumDeclaration r attributes).Gives Shaped := by
  refine token_gives.bind fun keyword h₁ => ?_
  refine identifier_gives.bind fun label h₂ => ?_
  refine (introduced_gives (eat_gives .colon) (typeDeclaration_gives hr)).bind
    fun backing h₃ => ?_
  refine implementsClause_gives.bind fun interfaces h₄ => ?_
  refine (classBody_gives hr).bind fun body h₅ => .pure ?_
  obtain ⟨ms, hms⟩ := h₅
  refine .node ?_ (by simp [h.1, h₁, h₂.shaped, h₃, h₄, hms.shaped])
  obtain ⟨-, as, rfl, has⟩ := h
  obtain ⟨k, tok, rfl, -⟩ := h₂
  exact
    { classLike := fun h => laidOut_classLike h rfl rfl has
        (hms.endsInBody _ [_, _, _, _, _, _, _]) }

theorem declaration_gives (hr : r.Shapes) {attributes : Tree} (h : Attributes attributes) :
    (declaration r attributes).Gives SlotShaped := by
  have found : ∀ {p : Production Tree}, p.Gives Shaped → (some <$> p).Gives SlotShaped :=
    fun hp => .map (hp.imp fun _ => Tree.slotShaped_some.mpr)
  refine .get fun c => ?_
  dsimp only
  split
  · exact found (functionDeclaration_gives hr h.1)
  split
  · exact found (classDeclaration_gives hr h)
  split
  · exact .pure Tree.slotShaped_none
  split
  · exact found (interfaceDeclaration_gives hr h)
  split
  · exact found (traitDeclaration_gives hr h)
  split
  · exact found (enumDeclaration_gives hr h)
  · exact .pure Tree.slotShaped_none

end PhpSyntax.Grammar
