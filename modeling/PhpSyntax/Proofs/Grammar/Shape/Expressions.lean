import PhpSyntax.Proofs.Grammar.Expressions
import PhpSyntax.Proofs.Grammar.Shape.Classes

namespace PhpSyntax

namespace Kind

/-- An operator that the loop leaves to the ones around it can take what the loop has built as its
left operand. -/
theorem leftLevel_le {k k' : Kind} {level level' : Nat} (h : k.level? = some level)
    (h' : k'.level? = some level') (hlt : level' < k.rightLevel level) :
    k'.leftLevel level' ≤ level := by
  unfold leftLevel
  split
  · next hk' =>
    -- the operator is `??`, which is on a level of its own
    obtain rfl : 6 = level' := by simpa [hk', level?] using h'
    by_cases hk : k = .nullCoalescing
    · simp only [rightLevel, if_pos hk] at hlt
      exact hlt
    · have hne : level ≠ 6 := fun he => hk (eq_nullCoalescing (he ▸ h))
      simp only [rightLevel, if_neg hk] at hlt
      omega
  · have hle : k.rightLevel level ≤ level + 1 := by
      unfold rightLevel
      split <;> omega
    omega

end Kind

namespace Grammar

open Production
open PhpSyntax.Tree (Shaped SlotsShaped IsOperand IsTight)

variable {r : Nested}

theorem dollarVariable_gives (hr : r.Shapes) : (dollarVariable r).Gives IsOperand := by
  refine token_gives.bind fun dollar h₁ => .get fun c => ?_
  split
  · refine token_gives.bind fun left h₂ => ?_
    refine hr.expression.bind fun inner h₃ => ?_
    refine (expect_gives _).bind fun right h₄ => ?_
    exact .pure (.plain rfl (by simp [h₁, h₂, h₃, h₄]))
  split
  · refine hr.dollarVariable.bind fun inner h₂ => ?_
    exact .pure (.plain rfl (by simp [h₁, h₂]))
  · refine variableName_gives.bind fun inner h₂ => ?_
    exact .pure (.plain rfl (by simp [h₁, h₂.shaped]))

theorem memberName_gives (hr : r.Shapes) : (memberName r).Gives Shaped := by
  refine .get fun c => ?_
  split
  · exact (leaf_gives rfl).imp fun _ h => h.shaped
  split
  · exact (leaf_gives rfl).imp fun _ h => h.shaped
  split
  · refine token_gives.bind fun left h₁ => ?_
    refine hr.expression.bind fun inner h₂ => ?_
    refine (expect_gives _).bind fun right h₃ => ?_
    exact .pure (.plain rfl (by simp [h₁, h₂, h₃]))
  split
  · exact (dollarVariable_gives hr).imp fun _ h => h.shaped
  · exact .expected

theorem referenceValue_gives (hr : r.Shapes) : (referenceValue r).Gives Shaped := by
  refine (expect_gives _).bind fun ampersand h₁ => ?_
  refine hr.access.bind fun target h₂ => ?_
  exact .pure (.plain rfl (by simp [h₁, h₂.shaped]))

theorem arrayPair_gives (hr : r.Shapes) : (arrayPair r).Gives Shaped := by
  refine .get fun c => ?_
  split
  · refine token_gives.bind fun ellipsis h₁ => ?_
    refine hr.expression.bind fun value h₂ => ?_
    have h₃ : (Tree.node .spreadArgument [some ellipsis, some value]).Shaped :=
      .plain rfl (by simp [h₁, h₂])
    exact .pure (.plain rfl (by simp [h₃]))
  split
  · refine (referenceValue_gives hr).bind fun value h₁ => ?_
    exact .pure (.plain rfl (by simp [h₁]))
  refine hr.expression.bind fun first h₁ => ?_
  refine (eat_gives .doubleArrow).bind fun o h₂ => ?_
  cases o with
  | none => exact .pure (.plain rfl (by simp [h₁]))
  | some arrow =>
    rw [Tree.slotShaped_some] at h₂
    refine .get fun c => ?_
    split
    · refine (referenceValue_gives hr).bind fun value h₃ => ?_
      exact .pure (.plain rfl (by simp [h₁, h₂, h₃]))
    · refine hr.expression.bind fun value h₃ => ?_
      exact .pure (.plain rfl (by simp [h₁, h₂, h₃]))

theorem arrayCall_gives (hr : r.Shapes) {kind : Kind} (hk : kind.isPlain = true)
    (allowEmpty : Bool) : (arrayCall r kind allowEmpty).Gives IsOperand := by
  refine token_gives.bind fun keyword h₁ => ?_
  refine token_gives.bind fun left h₂ => ?_
  refine (separatedList_gives _ _ (arrayPair_gives hr)).bind fun list h₃ => ?_
  refine (expect_gives _).bind fun right h₄ => ?_
  exact .pure (.plain hk (by simp [h₁, h₂, h₃, h₄]))

theorem matchArm_gives (hr : r.Shapes) : (matchArm r).Gives fun t =>
    t.Shaped ∧ (t.kind = .matchConditionClause ∨ t.kind = .matchDefaultClause) := by
  refine .get fun c => ?_
  split
  · refine token_gives.bind fun keyword h₁ => ?_
    refine (expect_gives _).bind fun arrow h₂ => ?_
    refine hr.expression.bind fun value h₃ => ?_
    exact .pure ⟨.plain rfl (by simp [h₁, h₂, h₃]), .inr rfl⟩
  · refine (commaList_gives _ hr.expression).bind fun conditions h₁ => ?_
    refine (expect_gives _).bind fun arrow h₂ => ?_
    refine hr.expression.bind fun value h₃ => ?_
    exact .pure ⟨.plain rfl (by simp [h₁, h₂, h₃]), .inl rfl⟩

theorem matchExpression_gives (hr : r.Shapes) : (matchExpression r).Gives IsOperand := by
  refine token_gives.bind fun keyword h₁ => ?_
  refine (expect_gives _).bind fun left h₂ => ?_
  refine hr.expression.bind fun subject h₃ => ?_
  refine (expect_gives _).bind fun right h₄ => ?_
  refine (expect_gives _).bind fun leftBrace h₅ => ?_
  refine (commaList_yields _ (fun _ h => h.1) (matchArm_gives hr)).bind fun arms h₆ => ?_
  refine (expect_gives _).bind fun rightBrace h₇ => .pure ⟨.node ?_ ?_, rfl⟩
  · obtain ⟨es, hlist, hes⟩ := h₆.lists
    exact
      { choice := fun _ => Tree.laidOut_matchExpression hlist fun e he => (hes e he).2 }
  · simp [h₁, h₂, h₃, h₄, h₅, h₆.shaped, h₇]

/-- A token after a tree, and another tree after the token, make a larger tree. -/
theorem joined_gives {kind : Kind} {tree : Tree} {right : Production Tree}
    (hk : kind.isPlain = true) (h : tree.Shaped) (hr : right.Gives Shaped) :
    (do
      let op ← token
      return some (Tree.node kind [tree, op, ← right]) : Production (Option Tree)).Gives
        fun o => ∀ larger ∈ o, larger.IsOperand := by
  refine token_gives.bind fun op h₁ => ?_
  refine hr.bind fun operand h₂ => .pure ?_
  rintro _ ⟨⟩
  exact .plain hk (by simp [h, h₁, h₂])

theorem classReferenceStep_gives (hr : r.Shapes) {tree : Tree} (h : tree.IsOperand) :
    (classReferenceStep r tree).Gives fun o => ∀ larger ∈ o, larger.IsOperand := by
  refine .get fun c => ?_
  split
  · exact joined_gives rfl h.shaped (memberName_gives hr)
  split
  · exact joined_gives rfl h.shaped (memberName_gives hr)
  split
  · exact joined_gives rfl h.shaped (variableName_gives.imp fun _ h => h.shaped)
  split
  · refine token_gives.bind fun left h₁ => ?_
    refine hr.expression.bind fun offset h₂ => ?_
    refine (expect_gives _).bind fun right h₃ => .pure ?_
    rintro _ ⟨⟩
    exact .plain rfl (by simp [h.shaped, h₁, h₂, h₃])
  · exact .pure nofun

theorem classReference_gives (hr : r.Shapes) : (classReference r).Gives IsOperand := by
  refine .get fun c => ?_
  split
  · exact Nested.parenthesised_gives hr
  split
  · exact name_gives.imp fun _ h => h.operand
  split
  · refine (dollarVariable_gives hr).bind fun first h₁ => ?_
    exact chain_gives (fun _ => classReferenceStep_gives hr) h₁
  · refine variableName_gives.bind fun first h₁ => ?_
    exact chain_gives (fun _ => classReferenceStep_gives hr) h₁.operand

/-- A call, whose arguments the view of it finds. -/
theorem functionCall_operand {callee suffix : Tree} (h : callee.Shaped) (hs : suffix.Shaped)
    (hsuffix : suffix.IsSuffix) :
    (Tree.node .functionCall [some callee, some suffix]).IsOperand where
  shaped := .node { call := fun _ => Tree.laidOut_functionCall hsuffix } (by simp [h, hs])
  kind := rfl

theorem newExpression_gives (hr : r.Shapes) : (newExpression r).Gives IsOperand := by
  refine token_gives.bind fun keyword h₁ => .get fun c => ?_
  split
  · refine (anonymousClass_gives hr).bind fun body h₂ => ?_
    exact .pure (.plain rfl (by simp [h₁, h₂]))
  refine (classReference_gives hr).bind fun reference h₂ => .get fun c => ?_
  split
  · refine (arguments_gives hr).bind fun arguments h₃ => ?_
    have h₄ := functionCall_operand h₂.shaped h₃.1 h₃.2
    exact .pure (.plain rfl (by simp [h₁, h₄.shaped]))
  · exact .pure (.plain rfl (by simp [h₁, h₂.shaped]))

theorem literal_gives {kind : Kind} (h : kind.isPlain = true) : (leaf kind).Gives IsOperand :=
  (leaf_gives h).imp fun _ h => h.operand

theorem identifierExpression_gives (hr : r.Shapes) :
    (identifierExpression r).Gives IsOperand := by
  refine .get fun c => ?_
  dsimp only
  split
  · exact literal_gives rfl
  split
  · exact literal_gives rfl
  split
  · exact literal_gives rfl
  split
  · exact arrayCall_gives hr rfl _
  split
  · exact arrayCall_gives hr rfl _
  split
  · exact matchExpression_gives hr
  split
  · exact newExpression_gives hr
  split
  · exact closure_gives hr attributes_nil.1
  · exact name_gives.imp fun _ h => h.operand

theorem punctuatorExpression_gives (hr : r.Shapes) :
    (punctuatorExpression r).Gives IsOperand := by
  refine .get fun c => ?_
  split
  · exact Nested.parenthesised_gives hr
  split
  · refine token_gives.bind fun left h₁ => ?_
    refine (separatedList_gives _ _ (arrayPair_gives hr)).bind fun list h₂ => ?_
    refine (expect_gives _).bind fun right h₃ => ?_
    exact .pure (.plain rfl (by simp [h₁, h₂, h₃]))
  split
  · exact dollarVariable_gives hr
  split
  · refine (attributes_gives hr).bind fun attributes h₁ => ?_
    exact closure_gives hr h₁.1
  · exact .unexpected

theorem primary_gives (hr : r.Shapes) : (primary r).Gives IsOperand := by
  refine .get fun c => ?_
  split
  · exact literal_gives rfl
  · exact literal_gives rfl
  · exact literal_gives rfl
  · exact literal_gives rfl
  · exact literal_gives rfl
  · exact literal_gives rfl
  · exact literal_gives rfl
  · exact literal_gives rfl
  · exact literal_gives rfl
  · exact identifierExpression_gives hr
  · exact punctuatorExpression_gives hr
  · exact .unexpected

theorem accessStep_gives (hr : r.Shapes) {tree : Tree} (h : tree.IsOperand) :
    (accessStep r tree).Gives fun o => ∀ larger ∈ o, larger.IsOperand := by
  refine .get fun c => ?_
  split
  · refine token_gives.bind fun left h₁ => ?_
    refine (optional_gives _ hr.expression).bind fun offset h₂ => ?_
    refine (expect_gives _).bind fun right h₃ => .pure ?_
    rintro _ ⟨⟩
    exact .plain rfl (by simp [h.shaped, h₁, h₂, h₃])
  split
  · refine (arguments_gives hr).bind fun arguments h₁ => .pure ?_
    rintro _ ⟨⟩
    exact functionCall_operand h.shaped h₁.1 h₁.2
  split
  · exact joined_gives rfl h.shaped (memberName_gives hr)
  split
  · exact joined_gives rfl h.shaped (memberName_gives hr)
  split
  · exact joined_gives rfl h.shaped (memberName_gives hr)
  split
  · refine token_gives.bind fun op h₁ => .pure ?_
    rintro _ ⟨⟩
    exact .plain rfl (by simp [h.shaped, h₁])
  split
  · refine token_gives.bind fun op h₁ => .pure ?_
    rintro _ ⟨⟩
    exact .plain rfl (by simp [h.shaped, h₁])
  · exact .pure nofun

theorem access_gives (hr : r.Shapes) : (access r).Gives IsOperand := by
  refine (primary_gives hr).bind fun tree h => ?_
  exact chain_gives (fun _ => accessStep_gives hr) h

theorem prefixed_gives (hr : r.Shapes) {kind : Kind} (hk : kind.isPrefix = true) :
    (prefixed r kind).Gives IsTight := by
  refine token_gives.bind fun op h₁ => ?_
  refine hr.unary.bind fun operand h₂ => .pure ⟨?_, ?_⟩
  · exact .node (Tree.regular_prefix hk h₂.2) (by simp [h₁, h₂.1])
  · exact Kind.isTight_of_level? (Kind.others_of_isPrefix hk).2.1

theorem keywordOperand_gives (hr : r.Shapes) {kind : Kind} (hk : kind.isPlain = true) :
    (keywordOperand r kind).Gives IsTight := by
  refine token_gives.bind fun keyword h₁ => ?_
  refine (hr.operand _).bind fun operand h₂ => ?_
  exact .pure (IsOperand.plain hk (by simp [h₁, h₂.1])).tight

theorem yieldExpression_gives (hr : r.Shapes) : (yieldExpression r).Gives IsTight := by
  refine token_gives.bind fun keyword h₁ => .get fun c => ?_
  split
  · refine token_gives.bind fun source h₂ => ?_
    refine (hr.operand _).bind fun value h₃ => ?_
    exact .pure (IsOperand.plain rfl (by simp [h₁, h₂, h₃.1])).tight
  split
  · exact .pure (IsOperand.plain rfl (by simp [h₁])).tight
  refine (hr.operand _).bind fun first h₂ => ?_
  refine (eat_gives .doubleArrow).bind fun o h₃ => ?_
  cases o with
  | some arrow =>
    rw [Tree.slotShaped_some] at h₃
    refine (hr.operand _).bind fun value h₄ => ?_
    exact .pure (IsOperand.plain rfl (by simp [h₁, h₂.1, h₃, h₄.1])).tight
  | none => exact .pure (IsOperand.plain rfl (by simp [h₁, h₂.1])).tight

theorem assignment_tight {kind : Kind} {target : Tree} {rest : List (Option Tree)}
    (hk : kind.isAssignment = true) (ht : isAssignable target.kind = true) (h : target.Shaped)
    (hrest : SlotsShaped rest) : (Tree.node kind (some target :: rest)).IsTight where
  shaped := .node (Tree.regular_assignment hk ht) (by simp [h, hrest])
  kind := Kind.isTight_of_level? (Kind.others_of_isAssignment hk).2.1

theorem afterAccess_gives (hr : r.Shapes) {tree : Tree} (h : tree.IsOperand) :
    (afterAccess r tree).Gives IsTight := by
  refine .get fun c => ?_
  split
  · refine (leaf_yields _).bind fun op h₁ => ?_
    obtain ⟨tok, rfl⟩ := h₁
    refine hr.unary.bind fun exponent h₂ => .pure ⟨.node ?_ ?_, rfl⟩
    · exact Tree.regular_power h.kind h₂.kind
    · simp [h.shaped, h₂.shaped]
  split
  · exact .pure h.tight
  next ht =>
  have ht : isAssignable tree.kind = true := by simpa using ht
  split
  · refine token_gives.bind fun op h₁ => ?_
    refine (eat_gives .ampersand).bind fun o h₂ => ?_
    cases o with
    | some ampersand =>
      rw [Tree.slotShaped_some] at h₂
      refine (hr.operand _).bind fun value h₃ => ?_
      exact .pure (assignment_tight rfl ht h.shaped (by simp [h₁, h₂, h₃.1]))
    | none =>
      refine (hr.operand _).bind fun value h₃ => ?_
      exact .pure (assignment_tight rfl ht h.shaped (by simp [h₁, h₃.1]))
  split
  · refine token_gives.bind fun op h₁ => ?_
    refine (hr.operand _).bind fun value h₂ => ?_
    exact .pure (assignment_tight rfl ht h.shaped (by simp [h₁, h₂.1]))
  · exact .pure h.tight

theorem isPrefix_of_prefixKind {c : Cursor} {kind : Kind} (h : c.prefixKind? = some kind) :
    kind.isPrefix = true := by
  unfold Cursor.prefixKind? at h
  split at h
  · cases h
    rfl
  · obtain ⟨p, hp, rfl⟩ := Option.map_eq_some_iff.mp h
    exact List.all_eq_true.mp (show prefixKinds.all (·.2.isPrefix) = true from rfl) p
      (List.mem_of_find?_eq_some hp)
  · split at h
    · cases h
      rfl
    · cases h
  · cases h

theorem isPlain_of_operandKind {c : Cursor} {kind : Kind} (h : c.operandKind? = some kind) :
    kind.isPlain = true := by
  unfold Cursor.operandKind? at h
  split at h
  · cases h
    rfl
  split at h
  · cases h
    rfl
  split at h
  · cases h
    rfl
  · cases h

theorem unary_gives (hr : r.Shapes) : (unary r).Gives IsTight := by
  refine .get fun c => ?_
  split
  · next hk => exact prefixed_gives hr (isPrefix_of_prefixKind hk)
  · next hk => exact keywordOperand_gives hr (isPlain_of_operandKind hk)
  split
  · refine token_gives.bind fun op h₁ => ?_
    refine (hr.operand _).bind fun operand h₂ => .pure ⟨.node ?_ ?_, rfl⟩
    · refine Tree.regular_negation ?_
      cases hlevel : operand.kind.level? with
      | none => exact .inl (Kind.isTight_of_level? hlevel)
      | some level => exact .inr (Kind.eq_instanceof hlevel (h₂.2 level hlevel))
    · simp [h₁, h₂.1]
  split
  · exact yieldExpression_gives hr
  · exact (access_gives hr).bind fun tree h => afterAccess_gives hr h

/-- What the loop over operators keeps: it has built `t` and stands at `c`, where an operator that
follows can take `t` as its left operand. -/
structure Climbs (minLevel : Nat) (t : Tree) (c : Cursor) : Prop where
  shaped : t.Shaped
  binds : t.BindsFrom minLevel
  left : ∀ kind level, c.operator? = some (kind, level) → t.BindsFrom (kind.leftLevel level)

theorem climbs_of_isTight {minLevel : Nat} {t : Tree} {c : Cursor} (h : t.IsTight) :
    Climbs minLevel t c :=
  ⟨h.shaped, Tree.bindsFrom_of_isTight h.kind _, fun _ _ _ => Tree.bindsFrom_of_isTight h.kind _⟩

/-- An operator whose right operand ends before the operators that it leaves to the loop. -/
theorem climbs_node {minLevel level : Nat} {k : Kind} {cs : List (Option Tree)} {c : Cursor}
    (hk : k.level? = some level) (hmin : minLevel ≤ level) (h : (Tree.node k cs).Shaped)
    (hc : c.StopsBefore (k.rightLevel level)) : Climbs minLevel (.node k cs) c where
  shaped := h
  binds := by
    intro l hl
    obtain rfl : level = l := Option.some.inj (hk.symm.trans hl)
    exact hmin
  left := by
    intro k' level' hop l hl
    obtain rfl : level = l := Option.some.inj (hk.symm.trans hl)
    exact Kind.leftLevel_le hk (operator_spec hop).2 (hc k' level' hop)

theorem operatorStep_climbs (hr : r.Shapes) (minLevel : Nat) ⦃t : Tree⦄ ⦃c : Cursor⦄ (hc : c.Ends)
    (h : Climbs minLevel t c) : (operatorStep r minLevel t).Ensures c fun o d =>
      match o with
      | some larger => c.Precedes d ∧ Climbs minLevel larger d
      | none => c.Leads d ∧ t.Shaped ∧ t.BindsFrom minLevel ∧ d.StopsBefore minLevel := by
  refine .get ?_
  split
  · next hop => exact .pure ⟨.refl, h.shaped, h.binds, by simp [Cursor.StopsBefore, hop]⟩
  next kind level hop =>
  obtain ⟨hn, hlevel⟩ := operator_spec hop
  have hfirst := Cursor.precedes_next hc hn
  have hc₁ := hfirst.leads.ends hc
  split
  · next hlt =>
    refine .pure ⟨.refl, h.shaped, h.binds, fun k l hop' => ?_⟩
    cases hop.symm.trans hop'
    exact hlt
  next hle =>
  split
  · next hk =>
    subst hk
    cases hlevel
    refine .map (Ensures.leaf ?_)
    refine (optional_gives _ hr.expression hc₁).bind fun consequent c₂ h₂ => ?_
    have hc₂ := h₂.1.ends hc₁
    refine (expect_gives _ hc₂).bind fun colon c₃ h₃ => ?_
    refine (hr.binary _ (h₃.1.ends hc₂)).bind fun alternative c₄ h₄ => .pure ⟨?_, ?_⟩
    · exact hfirst.trans_leads (h₂.1.trans (h₃.1.trans h₄.1))
    · refine climbs_node rfl (by omega) (.node ?_ ?_) h₄.2.2.2
      · exact Tree.regular_conditional (h.left _ _ hop) h₄.2.2.1
      · simp [h.shaped, h₂.2, h₃.2, h₄.2.1]
  · next hk =>
    refine Ensures.leaf ((hr.binary _ hc₁).bind fun right c₂ h₂ => .pure ⟨?_, ?_⟩)
    · exact hfirst.trans_leads h₂.1
    · refine climbs_node hlevel (by omega) (.node ?_ ?_) h₂.2.2.2
      · exact Tree.regular_binary hlevel hk (h.left _ _ hop) h₂.2.2.1
      · simp [h.shaped, h₂.2.1]

theorem binary_binds (hr : r.Shapes) (minLevel : Nat) : (binary r minLevel).BindsAt minLevel := by
  intro c hc
  refine (unary_gives hr hc).bind fun tree c₁ h₁ => .get ?_
  refine (chainUpTo_ends (operatorStep_climbs hr minLevel) _ (h₁.1.ends hc) (Nat.le_refl _)
    (climbs_of_isTight h₁.2)).imp fun t d hd => ?_
  exact ⟨h₁.1.trans hd.1, hd.2⟩

theorem expression_gives (hr : r.Shapes) : (expression r).Gives Shaped :=
  fun _ hc => (binary_binds hr 0 hc).imp fun _ _ hd => ⟨hd.1, hd.2.1⟩

end Grammar

end PhpSyntax
