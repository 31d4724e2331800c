import PhpSyntax.Proofs.Grammar.Renamed.Classes

namespace PhpSyntax.Grammar

open Production

variable {f : Renaming} {r : Nested} {c : Cursor}

theorem dollarVariable_mirrors (hr : r.Mirrored f) (hc : c.seesInfix = false) :
    Mirrors f (Tree.rename f) c (dollarVariable r) (dollarVariable r) := by
  refine (token_mirrors hc).bind fun dollar c₁ => .get ?_
  refine .ite (by simp) (fun hb => ?_) fun _ => .ite (by simp) (fun hd => ?_) fun _ => ?_
  · refine (token_mirrors (Cursor.not_infix_of_sees hb rfl)).bind fun left c₂ => ?_
    refine (hr.expression c₂).bind fun inner c₃ => ?_
    exact (expect_mirrors (by decide)).bind fun right c₄ => .pure (by simp)
  · exact (hr.dollarVariable c₁ (Cursor.not_infix_of_sees hd rfl)).bind
      fun inner c₂ => .pure (by simp)
  · exact (variableName_mirrored c₁).bind fun variableName c₂ => .pure (by simp)

theorem memberName_mirrored (hr : r.Mirrored f) : (memberName r).Mirrored f := by
  refine fun c => .get (.ite (by simp) (fun hc => ?_) fun _ => .ite (by simp) (fun hc => ?_)
    fun _ => .ite (by simp) (fun hc => ?_) fun _ => .ite (by simp) (fun hc => ?_)
    fun _ => .expected)
  · exact leaf_mirrors (Cursor.not_infix_of_seesKind hc (by decide))
  · exact leaf_mirrors (Cursor.not_infix_of_seesKind hc (by decide))
  · refine (token_mirrors (Cursor.not_infix_of_sees hc rfl)).bind fun left c₁ => ?_
    refine (hr.expression c₁).bind fun inner c₂ => ?_
    exact (expect_mirrors (by decide)).bind fun right c₃ => .pure (by simp)
  · exact dollarVariable_mirrors hr (Cursor.not_infix_of_sees hc rfl)

theorem referenceValue_mirrored (hr : r.Mirrored f) : (referenceValue r).Mirrored f := by
  refine fun c => (expect_mirrors (by decide)).bind fun ampersand c₁ => ?_
  exact (hr.access c₁).bind fun value c₂ => .pure (by simp)

theorem arrayPair_mirrored (hr : r.Mirrored f) : (arrayPair r).Mirrored f := by
  refine fun c => .get (.ite (by simp) (fun hc => ?_) fun _ => .ite (by simp) (fun _ => ?_)
    fun _ => ?_)
  · refine (token_mirrors (Cursor.not_infix_of_sees hc rfl)).bind fun ellipsis c₁ => ?_
    exact (hr.expression c₁).bind fun value c₂ => .pure (by simp)
  · exact (referenceValue_mirrored hr c).bind fun value c₁ => .pure (by simp)
  · refine (hr.expression c).bind fun first c₁ => ?_
    refine (eat_mirrors .doubleArrow rfl).bind fun o c₂ => ?_
    cases o with
    | none => exact .pure (by simp)
    | some arrow =>
      refine .get (.ite (by simp) (fun _ => ?_) fun _ => ?_)
      · exact (referenceValue_mirrored hr c₂).bind fun value c₃ => .pure (by simp)
      · exact (hr.expression c₂).bind fun value c₃ => .pure (by simp)

theorem arrayCall_mirrors (hr : r.Mirrored f) (kind : Kind) (allowEmpty : Bool)
    (hc : ¬ c.atEnd = true) (hi : c.seesInfix = false)
    (hp : (c.peek 1).isPunctuator .leftParenthesis = true) :
    Mirrors f (Tree.rename f) c (arrayCall r kind allowEmpty) (arrayCall r kind allowEmpty) := by
  refine .leaf hi ?_
  rw [Cursor.peek_one hc] at hp
  refine (token_mirrors (Cursor.not_infix_of_sees hp rfl)).bind fun left c₁ => ?_
  refine (separatedList_mirrored _ _ (arrayPair_mirrored hr) c₁).bind fun list c₂ => ?_
  exact (expect_mirrors (by decide)).bind fun right c₃ => .pure (by simp)

theorem matchArm_mirrored (hr : r.Mirrored f) : (matchArm r).Mirrored f := by
  refine fun c => .get (.ite (by simp) (fun hc => ?_) fun _ => ?_)
  · have hk := Cursor.not_infix_of_seesKeyword (Bool.and_eq_true_iff.mp hc).1
    refine (token_mirrors hk).bind fun keyword c₁ => ?_
    refine (expect_mirrors (by decide)).bind fun arrow c₂ => ?_
    exact (hr.expression c₂).bind fun value c₃ => .pure (by simp)
  · refine (commaList_mirrored _ hr.expression c).bind fun conditions c₁ => ?_
    refine (expect_mirrors (by decide)).bind fun arrow c₂ => ?_
    exact (hr.expression c₂).bind fun value c₃ => .pure (by simp)

theorem matchExpression_mirrors (hr : r.Mirrored f) (hc : c.seesInfix = false) :
    Mirrors f (Tree.rename f) c (matchExpression r) (matchExpression r) := by
  refine (token_mirrors hc).bind fun keyword c₁ => ?_
  refine (expect_mirrors (by decide)).bind fun left c₂ => ?_
  refine (hr.expression c₂).bind fun subject c₃ => ?_
  refine (expect_mirrors (by decide)).bind fun right c₄ => ?_
  refine (expect_mirrors (by decide)).bind fun leftBrace c₅ => ?_
  refine (commaList_mirrored _ (matchArm_mirrored hr) c₅).bind fun arms c₆ => ?_
  exact (expect_mirrors (by decide)).bind fun rightBrace c₇ => .pure (by simp)

/-- A tree, a token and a tree after it become one. -/
theorem joined_mirrors {kind : Kind} {tree : Tree} {p : Production Tree} (hp : p.Mirrored f)
    (hc : c.seesInfix = false) :
    Mirrors f (Option.map (Tree.rename f)) c
      (do let op ← token; return some (.node kind [tree, op, ← p]))
      (do let op ← token; return some (.node kind [tree.rename f, op, ← p])) := by
  refine (token_mirrors hc).bind fun op c₁ => ?_
  exact (hp c₁).bind fun right c₂ => .pure (by simp)

theorem classReferenceStep_mirrors (hr : r.Mirrored f) (tree : Tree) :
    Mirrors f (Option.map (Tree.rename f)) c (classReferenceStep r tree)
      (classReferenceStep r (tree.rename f)) := by
  refine .get (.ite (by simp) (fun hc => ?_) fun _ => .ite (by simp) (fun hc => ?_) fun _ =>
    .ite (by simp) (fun hc => ?_) fun _ => .ite (by simp) (fun hc => ?_) fun _ => .pure rfl)
  · exact joined_mirrors (memberName_mirrored hr) (Cursor.not_infix_of_sees hc rfl)
  · exact joined_mirrors (memberName_mirrored hr) (Cursor.not_infix_of_sees hc rfl)
  · exact joined_mirrors variableName_mirrored (Cursor.not_infix_of_sees hc rfl)
  · refine (token_mirrors (Cursor.not_infix_of_sees hc rfl)).bind fun left c₁ => ?_
    refine (hr.expression c₁).bind fun offset c₂ => ?_
    exact (expect_mirrors (by decide)).bind fun right c₃ => .pure (by simp)

theorem classReference_mirrored (hr : r.Mirrored f) : (classReference r).Mirrored f := by
  refine fun c => .get (.ite (by simp) (fun _ => Nested.parenthesised_mirrored hr c) fun _ =>
    .ite (by simp) (fun _ => name_mirrored c) fun _ => ?_)
  have hstep : ∀ tree c, Mirrors f (Option.map (Tree.rename f)) c (classReferenceStep r tree)
      (classReferenceStep r (tree.rename f)) := fun tree _ => classReferenceStep_mirrors hr tree
  refine .ite (by simp) (fun hc => ?_) fun _ => ?_
  · exact (dollarVariable_mirrors hr (Cursor.not_infix_of_sees hc rfl)).bind
      fun first c₁ => chain_mirrors hstep
  · exact (variableName_mirrored c).bind fun first c₁ => chain_mirrors hstep

theorem newExpression_mirrors (hr : r.Mirrored f) (hc : c.seesInfix = false) :
    Mirrors f (Tree.rename f) c (newExpression r) (newExpression r) := by
  refine (token_mirrors hc).bind fun keyword c₁ => .get (.ite (by simp) (fun _ => ?_) fun _ => ?_)
  · exact (anonymousClass_mirrored hr c₁).bind fun body c₂ => .pure (by simp)
  refine (classReference_mirrored hr c₁).bind fun reference c₂ => .get ?_
  refine .ite (by simp) (fun _ => ?_) fun _ => .pure (by simp)
  exact (arguments_mirrored hr c₂).bind fun arguments c₃ => .pure (by simp)

theorem identifierExpression_mirrors (hr : r.Mirrored f) (hk : c.current.kind = .identifier) :
    Mirrors f (Tree.rename f) c (identifierExpression r) (identifierExpression r) := by
  have hi : c.seesInfix = false := Cursor.not_infix_of_kind (by simp [hk])
  have hn : ¬ c.atEnd = true := by simp [Cursor.atEnd_iff, hk]
  have called : ∀ k : Keyword,
      (c.seesKeyword k && (c.peek 1).isPunctuator .leftParenthesis) = true →
      (c.peek 1).isPunctuator .leftParenthesis = true := fun k h => (Bool.and_eq_true_iff.mp h).2
  have text : ∀ words, spellsAny words (c.rename f).current.text = spellsAny words c.current.text :=
    f.spellsAny_apply _ hk
  refine .get (.ite (by rw [text]) (fun _ => leaf_mirrors hi) fun _ =>
    .ite (by rw [text]) (fun _ => leaf_mirrors hi) fun _ =>
    .ite (by rw [text]) (fun _ => leaf_mirrors hi) fun _ =>
    .ite (by simp) (fun hc => arrayCall_mirrors hr _ _ hn hi (called _ hc)) fun _ =>
    .ite (by simp) (fun hc => arrayCall_mirrors hr _ _ hn hi (called _ hc)) fun _ =>
    .ite (by simp) (fun _ => matchExpression_mirrors hr hi) fun _ =>
    .ite (by simp) (fun _ => newExpression_mirrors hr hi) fun _ =>
    .ite (by simp) (fun _ => ?_) fun _ => name_mirrored c)
  exact closure_mirrors hr (.node .plainList [])

theorem punctuatorExpression_mirrored (hr : r.Mirrored f) :
    (punctuatorExpression r).Mirrored f := by
  refine fun c => .get (.ite (by simp) (fun _ => Nested.parenthesised_mirrored hr c) fun _ =>
    .ite (by simp) (fun hc => ?_) fun _ =>
    .ite (by simp) (fun hc => dollarVariable_mirrors hr (Cursor.not_infix_of_sees hc rfl)) fun _ =>
    .ite (by simp) (fun _ => ?_) fun _ => .unexpected)
  · refine (token_mirrors (Cursor.not_infix_of_sees hc rfl)).bind fun left c₁ => ?_
    refine (separatedList_mirrored _ _ (arrayPair_mirrored hr) c₁).bind fun list c₂ => ?_
    exact (expect_mirrors (by decide)).bind fun right c₃ => .pure (by simp)
  · exact (attributes_mirrored hr c).bind fun attributes c₁ => closure_mirrors hr attributes

theorem primary_mirrored (hr : r.Mirrored f) : (primary r).Mirrored f := by
  intro c
  refine .get ?_
  rw [Cursor.current_rename, f.kind_apply]
  cases hk : c.current.kind with
  | identifier => exact identifierExpression_mirrors hr hk
  | punctuator => exact punctuatorExpression_mirrored hr c
  | inlineHtml | openTag | openTagWithEcho | closeTag | cast | eof => exact .unexpected
  | _ => exact leaf_mirrors (Cursor.not_infix_of_kind (by simp [hk]))

theorem accessStep_mirrors (hr : r.Mirrored f) (tree : Tree) :
    Mirrors f (Option.map (Tree.rename f)) c (accessStep r tree)
      (accessStep r (tree.rename f)) := by
  refine .get (.ite (by simp) (fun hc => ?_) fun _ => .ite (by simp) (fun _ => ?_) fun _ =>
    .ite (by simp) (fun hc => ?_) fun _ => .ite (by simp) (fun hc => ?_) fun _ =>
    .ite (by simp) (fun hc => ?_) fun _ => .ite (by simp) (fun hc => ?_) fun _ =>
    .ite (by simp) (fun hc => ?_) fun _ => .pure rfl)
  · refine (token_mirrors (Cursor.not_infix_of_sees hc rfl)).bind fun left c₁ => ?_
    refine (optional_mirrors (by simp) fun _ => hr.expression c₁).bind fun offset c₂ => ?_
    exact (expect_mirrors (by decide)).bind fun right c₃ => .pure (by simp)
  · exact (arguments_mirrored hr c).bind fun arguments c₁ => .pure (by simp)
  · exact joined_mirrors (memberName_mirrored hr) (Cursor.not_infix_of_sees hc rfl)
  · exact joined_mirrors (memberName_mirrored hr) (Cursor.not_infix_of_sees hc rfl)
  · exact joined_mirrors (memberName_mirrored hr) (Cursor.not_infix_of_sees hc rfl)
  · exact (token_mirrors (Cursor.not_infix_of_sees hc rfl)).bind fun op c₁ => .pure (by simp)
  · exact (token_mirrors (Cursor.not_infix_of_sees hc rfl)).bind fun op c₁ => .pure (by simp)

theorem access_mirrored (hr : r.Mirrored f) : (access r).Mirrored f :=
  fun c => (primary_mirrored hr c).bind fun _ _ =>
    chain_mirrors fun tree _ => accessStep_mirrors hr tree

theorem prefixed_mirrors (hr : r.Mirrored f) (kind : Kind) (hc : c.seesInfix = false) :
    Mirrors f (Tree.rename f) c (prefixed r kind) (prefixed r kind) := by
  refine (token_mirrors hc).bind fun op c₁ => ?_
  exact (hr.unary c₁).bind fun operand c₂ => .pure (by simp)

theorem keywordOperand_mirrors (hr : r.Mirrored f) (kind : Kind) (hc : c.seesInfix = false) :
    Mirrors f (Tree.rename f) c (keywordOperand r kind) (keywordOperand r kind) := by
  refine (token_mirrors hc).bind fun keyword c₁ => ?_
  exact (hr.binary _ c₁).bind fun operand c₂ => .pure (by simp)

theorem yieldExpression_mirrors (hr : r.Mirrored f) (hc : c.seesInfix = false) :
    Mirrors f (Tree.rename f) c (yieldExpression r) (yieldExpression r) := by
  refine (token_mirrors hc).bind fun keyword c₁ => .get ?_
  refine .ite (by simp) (fun hf => ?_) fun _ =>
    .ite (by simp) (fun _ => .pure (by simp)) fun _ => ?_
  · refine (token_mirrors (Cursor.not_infix_of_seesKeyword hf)).bind fun source c₂ => ?_
    exact (hr.binary _ c₂).bind fun value c₃ => .pure (by simp)
  · refine (hr.binary _ c₁).bind fun first c₂ => ?_
    refine (eat_mirrors .doubleArrow rfl).bind fun o c₃ => ?_
    cases o with
    | some arrow => exact (hr.binary _ c₃).bind fun value c₄ => .pure (by simp)
    | none => exact .pure (by simp)

theorem afterAccess_mirrors (hr : r.Mirrored f) (tree : Tree) :
    Mirrors f (Tree.rename f) c (afterAccess r tree) (afterAccess r (tree.rename f)) := by
  refine .get (.ite (by simp) (fun hc => ?_) fun _ =>
    .ite (by simp) (fun _ => .pure rfl) fun _ => .ite (by simp) (fun hc => ?_) fun _ =>
    .ite (by simp) (fun hc => ?_) fun _ => .pure rfl)
  · refine (token_mirrors (Cursor.not_infix_of_sees hc rfl)).bind fun op c₁ => ?_
    exact (hr.unary c₁).bind fun power c₂ => .pure (by simp)
  · refine (token_mirrors (Cursor.not_infix_of_sees hc rfl)).bind fun op c₁ => ?_
    refine (eat_mirrors .ampersand rfl).bind fun o c₂ => ?_
    cases o with
    | some ampersand => exact (hr.binary _ c₂).bind fun value c₃ => .pure (by simp)
    | none => exact (hr.binary _ c₂).bind fun value c₃ => .pure (by simp)
  · refine (token_mirrors (Cursor.not_infix_of_seesAny hc (by decide))).bind fun op c₁ => ?_
    exact (hr.binary _ c₁).bind fun value c₂ => .pure (by simp)

theorem not_infix_of_prefixKind {kind : Kind} (h : c.prefixKind? = some kind) :
    c.seesInfix = false := by
  unfold Cursor.prefixKind? at h
  split at h
  · next hk => exact Cursor.not_infix_of_kind (by simp [hk])
  · obtain ⟨p, hp, -⟩ := Option.map_eq_some_iff.mp h
    have hclear : ∀ p ∈ prefixKinds, infixOperators.contains p.1 = false := by decide
    have hs : c.sees p.1 = true := by simpa using List.find?_some hp
    exact Cursor.not_infix_of_sees hs (hclear p (List.mem_of_find?_eq_some hp))
  · next hk => exact Cursor.not_infix_of_kind (by simp [hk])
  · cases h

theorem not_infix_of_operandKind {kind : Kind} (h : c.operandKind? = some kind) :
    c.seesInfix = false := by
  unfold Cursor.operandKind? at h
  split at h
  · next hk => exact Cursor.not_infix_of_seesKeyword hk
  split at h
  · next hk => exact Cursor.not_infix_of_seesKeyword hk
  split at h
  · next hk => exact Cursor.not_infix_of_seesAnyKeyword hk
  · cases h

theorem unary_mirrored (hr : r.Mirrored f) : (unary r).Mirrored f := by
  intro c
  refine .get ?_
  rw [Cursor.prefixKind?_rename, Cursor.operandKind?_rename]
  split
  · next hk => exact prefixed_mirrors hr _ (not_infix_of_prefixKind hk)
  · next hk => exact keywordOperand_mirrors hr _ (not_infix_of_operandKind hk)
  refine .ite (by simp) (fun hc => ?_) fun _ => .ite (by simp) (fun hc => ?_) fun _ => ?_
  · refine (token_mirrors (Cursor.not_infix_of_sees hc rfl)).bind fun op c₁ => ?_
    exact (hr.binary _ c₁).bind fun operand c₂ => .pure (by simp)
  · exact yieldExpression_mirrors hr (Cursor.not_infix_of_seesKeyword hc)
  · exact (access_mirrored hr c).bind fun tree c₁ => afterAccess_mirrors hr tree

theorem conditional_mirrors (hr : r.Mirrored f) (condition : Tree) (level : Nat)
    (hc : c.seesInfix = false) :
    Mirrors f (Tree.rename f) c (conditional r condition level)
      (conditional r (condition.rename f) level) := by
  refine (token_mirrors hc).bind fun query c₁ => ?_
  refine (optional_mirrors (by simp) fun _ => hr.expression c₁).bind fun yes c₂ => ?_
  refine (expect_mirrors (by decide)).bind fun colon c₃ => ?_
  exact (hr.binary _ c₃).bind fun no c₄ => .pure (by simp)

/-- Only a question mark makes a conditional expression. -/
theorem not_infix_of_conditional {level : Nat}
    (h : c.operator? = some (.conditionalExpression, level)) : c.seesInfix = false := by
  have kind_of : ∀ {o : Option Kind}, (o.bind fun k => k.level?.bind fun l => some (k, l)) =
      some (.conditionalExpression, level) → o = some .conditionalExpression := by
    intro o ho
    obtain ⟨k, hk, hl⟩ := Option.bind_eq_some_iff.mp ho
    obtain ⟨l, -, he⟩ := Option.bind_eq_some_iff.mp hl
    cases he
    exact hk
  unfold Cursor.operator? at h
  split at h
  · obtain ⟨p, hp, hkind⟩ := Option.bind_eq_some_iff.mp (kind_of h)
    have hquery : p = .query := by
      revert hkind
      cases p <;> simp [operatorKind?]
    exact Cursor.not_infix_of_sees (List.find?_some hp) (by rw [hquery]; decide)
  · next hk => exact Cursor.not_infix_of_kind (by simp [hk])
  · cases h

theorem operatorStep_mirrors (hr : r.Mirrored f) (minLevel : Nat) (left : Tree) :
    Mirrors f (Option.map (Tree.rename f)) c (operatorStep r minLevel left)
      (operatorStep r minLevel (left.rename f)) := by
  refine .get ?_
  rw [Cursor.operator?_rename]
  split
  · exact .pure rfl
  next kind level hop =>
  refine .ite .rfl (fun _ => .pure rfl) fun _ => .ite .rfl (fun hk => ?_) fun _ => ?_
  · subst hk
    exact (conditional_mirrors hr left level (not_infix_of_conditional hop)).map fun _ => rfl
  · refine .leafOf ((hr.binary _ c.next).bind fun right c₁ => .pure (by simp)) ?_
    -- the right operand was read, so no operator stands at its start
    exact fun tree d hrun _ =>
      ((hr.operand _ c.next).bind fun _ _ hi _ _ _ => hi) tree d hrun

theorem binary_mirrored (hr : r.Mirrored f) (minLevel : Nat) : (binary r minLevel).Mirrored f :=
  fun c => (unary_mirrored hr c).bind fun _ _ =>
    chain_mirrors fun tree _ => operatorStep_mirrors hr minLevel tree

theorem punctuatorExpression_operand :
    (punctuatorExpression r).Ensures c fun _ _ => c.seesInfix = false := by
  refine .get ?_
  split
  · next hc => exact fun _ _ _ => Cursor.not_infix_of_sees hc rfl
  split
  · next hc => exact fun _ _ _ => Cursor.not_infix_of_sees hc rfl
  split
  · next hc => exact fun _ _ _ => Cursor.not_infix_of_sees hc rfl
  split
  · next hc => exact fun _ _ _ => Cursor.not_infix_of_sees hc rfl
  · exact .unexpected

theorem primary_operand : (primary r).Ensures c fun _ _ => c.seesInfix = false := by
  refine .get ?_
  cases hk : c.current.kind with
  | punctuator => exact punctuatorExpression_operand
  | _ => exact fun _ _ _ => Cursor.not_infix_of_kind (by simp [hk])

theorem unary_operand : (unary r).Ensures c fun _ _ => c.seesInfix = false := by
  refine .get ?_
  split
  · next hk => exact fun _ _ _ => not_infix_of_prefixKind hk
  · next hk => exact fun _ _ _ => not_infix_of_operandKind hk
  split
  · next hc => exact fun _ _ _ => Cursor.not_infix_of_sees hc rfl
  split
  · next hc => exact fun _ _ _ => Cursor.not_infix_of_seesKeyword hc
  · have haccess : (access r).Ensures c fun _ _ => c.seesInfix = false :=
      primary_operand.bind fun _ _ hi _ _ _ => hi
    exact haccess.bind fun _ _ hi _ _ _ => hi

/-- No operand starts with an infix operator. -/
theorem binary_operand {minLevel : Nat} :
    (binary r minLevel).Ensures c fun _ _ => c.seesInfix = false :=
  unary_operand.bind fun _ _ hi _ _ _ => hi

end PhpSyntax.Grammar
