import PhpSyntax.Proofs.Grammar.Renamed.Functions

namespace PhpSyntax.Grammar

open Production

variable {f : Renaming} {r : Nested} {c : Cursor}

theorem constantAssignment_mirrored (hr : r.Mirrored f) : (constantAssignment r).Mirrored f := by
  refine fun c => (identifier_mirrored c).bind fun label c₁ => ?_
  refine (expect_mirrors (by decide)).bind fun equal c₂ => ?_
  exact (hr.expression c₂).bind fun value c₃ => .pure (by simp)

theorem initialisedVariable_mirrored (hr : r.Mirrored f) :
    (initialisedVariable r).Mirrored f := by
  refine fun c => (variableName_mirrored c).bind fun variableName c₁ => ?_
  exact (defaultValue_mirrors hr).bind fun value c₂ => .pure (by simp)

/-- Where a name is read, the cursor moves to the next token. -/
theorem name_run {t : Tree} {d : Cursor} (h : name.run c = .ok (t, d)) :
    d = c.next ∧ ¬ c.atEnd = true := by
  have hrun : name.Ensures c fun _ d => d = c.next ∧ ¬ c.atEnd = true := by
    refine .get (.get ?_)
    split
    · next hc =>
      rintro t d hr
      cases hr
      exact ⟨rfl, Cursor.not_atEnd_of_seesKind hc (by decide)⟩
    · exact .expected
  exact hrun t d h

theorem traitMethodReference_mirrored : traitMethodReference.Mirrored f := by
  refine fun c => .get (.ite (by simp) (fun hc => ?_) fun _ => ?_)
  · refine (name_mirrored c).bindOf fun traitName c₁ hrun => ?_
    obtain ⟨rfl, hn⟩ := name_run hrun
    rw [Cursor.peek_one hn] at hc
    refine (token_mirrors (Cursor.not_infix_of_sees hc rfl)).bind fun colons c₂ => ?_
    exact (identifier_mirrored c₂).bind fun label c₃ => .pure (by simp)
  · exact (identifier_mirrored c).bind fun label c₁ => .pure (by simp)

theorem traitAdaptation_mirrored : traitAdaptation.Mirrored f := by
  refine fun c => (traitMethodReference_mirrored c).bind fun reference c₁ => ?_
  refine (eatKeyword_mirrors _).bind fun o c₂ => ?_
  cases o with
  | some insteadof =>
    refine (nameList_mirrored c₂).bind fun names c₃ => ?_
    exact (statementEnd_mirrored c₃).bind fun close c₄ => .pure (by simp)
  | none =>
    refine (expectKeyword_mirrors _).bind fun asKeyword c₃ => ?_
    refine (eatIf_mirrors (by simp) Cursor.not_infix_of_seesAnyKeyword).bind
      fun modifier c₄ => ?_
    refine (optional_mirrors (by simp) fun _ => identifier_mirrored c₄).bind
      fun otherName c₅ => ?_
    exact (statementEnd_mirrored c₅).bind fun close c₆ => .pure (by simp)

theorem useTraitDeclaration_mirrors (hc : c.seesInfix = false) :
    Mirrors f (Tree.rename f) c useTraitDeclaration useTraitDeclaration := by
  refine (token_mirrors hc).bind fun keyword c₁ => ?_
  refine (nameList_mirrored c₁).bind fun traits c₂ => .get (.ite (by simp) (fun _ => ?_) ?_)
  · exact (statementEnd_mirrored c₂).bind fun close c₃ => .pure (by simp)
  · intro hb
    have hb : c₂.sees .leftCurlyBrace = true := by simpa using hb
    refine (token_mirrors (Cursor.not_infix_of_sees hb rfl)).bind fun left c₃ => ?_
    refine (gatherTrees_mirrors (by simp) fun d _ => traitAdaptation_mirrored d).bind
      fun adaptations c₄ => ?_
    exact (expect_mirrors (by decide)).bind fun right c₅ => .pure (by simp)

theorem enumCase_mirrors (hr : r.Mirrored f) (attributes : Tree) (hc : c.seesInfix = false) :
    Mirrors f (Tree.rename f) c (enumCase r attributes) (enumCase r (attributes.rename f)) := by
  refine (token_mirrors hc).bind fun keyword c₁ => ?_
  refine (identifier_mirrored c₁).bind fun label c₂ => ?_
  refine (defaultValue_mirrors hr).bind fun value c₃ => ?_
  exact (statementEnd_mirrored c₃).bind fun close c₄ => .pure (by simp)

theorem classConstant_mirrors (hr : r.Mirrored f) (attributes modifiers : Tree)
    (hc : c.seesInfix = false) :
    Mirrors f (Tree.rename f) c (classConstant r attributes modifiers)
      (classConstant r (attributes.rename f) (modifiers.rename f)) := by
  refine (token_mirrors hc).bind fun keyword c₁ => ?_
  refine (optional_mirrors (by simp) fun _ => typeDeclaration_mirrored hr c₁).bind
    fun declaredType c₂ => ?_
  refine (commaList_mirrored _ (constantAssignment_mirrored hr) c₂).bind fun list c₃ => ?_
  exact (statementEnd_mirrored c₃).bind fun close c₄ => .pure (by simp)

theorem methodDeclaration_mirrors (hr : r.Mirrored f) (attributes modifiers : Tree)
    (hc : c.seesInfix = false) :
    Mirrors f (Tree.rename f) c (methodDeclaration r attributes modifiers)
      (methodDeclaration r (attributes.rename f) (modifiers.rename f)) := by
  refine (token_mirrors hc).bind fun keyword c₁ => ?_
  refine (eat_mirrors .ampersand rfl).bind fun byReference c₂ => ?_
  refine (identifier_mirrored c₂).bind fun label c₃ => ?_
  refine (parameterList_mirrored hr c₃).bind fun parameters c₄ => ?_
  refine (returnTypeClause_mirrors hr).bind fun returnType c₅ => .get ?_
  refine .ite (by simp) (fun _ => ?_) fun _ => ?_
  · exact (statementEnd_mirrored c₅).bind fun body c₆ => .pure (by simp)
  · exact (Nested.block_mirrored hr c₅).bind fun body c₆ => .pure (by simp)

theorem propertyDeclaration_mirrors (hr : r.Mirrored f) (attributes modifiers : Tree) :
    Mirrors f (Tree.rename f) c (propertyDeclaration r attributes modifiers)
      (propertyDeclaration r (attributes.rename f) (modifiers.rename f)) := by
  refine (optional_mirrors (by simp) fun _ => typeDeclaration_mirrored hr c).bind
    fun declaredType c₁ => ?_
  refine (commaList_mirrored _ (initialisedVariable_mirrored hr) c₁).bind fun list c₂ => ?_
  exact (statementEnd_mirrored c₂).bind fun close c₃ => .pure (by simp)

theorem classMember_mirrored (hr : r.Mirrored f) : (classMember r).Mirrored f := by
  refine fun c => .get (.ite (by simp) (fun hc => ?_) fun _ => ?_)
  · exact useTraitDeclaration_mirrors (Cursor.not_infix_of_seesKeyword hc)
  refine (attributes_mirrored hr c).bind fun attributes c₁ => .get ?_
  refine .ite (by simp) (fun hc => ?_) fun _ => ?_
  · exact enumCase_mirrors hr _ (Cursor.not_infix_of_seesKeyword hc)
  refine (modifiers_mirrored _ c₁).bind fun modifiers c₂ => .get ?_
  refine .ite (by simp) (fun hc => ?_) fun _ => .ite (by simp) (fun hc => ?_) fun _ => ?_
  · exact classConstant_mirrors hr _ _ (Cursor.not_infix_of_seesKeyword hc)
  · exact methodDeclaration_mirrors hr _ _ (Cursor.not_infix_of_seesKeyword hc)
  · exact propertyDeclaration_mirrors hr _ _

def ClassBody.rename (f : Renaming) (body : ClassBody) : ClassBody :=
  ⟨body.left.rename f, body.members.rename f, body.right.rename f⟩

theorem classBody_mirrors (hr : r.Mirrored f) :
    Mirrors f (ClassBody.rename f) c (classBody r) (classBody r) := by
  refine (expect_mirrors (by decide)).bind fun left c₁ => ?_
  refine (gatherTrees_mirrors (by simp) fun d _ => classMember_mirrored hr d).bind
    fun members c₂ => ?_
  exact (expect_mirrors (by decide)).bind fun right c₃ => .pure rfl

theorem extendsClause_mirrors :
    Mirrors f (Prod.map (Option.map (Tree.rename f)) (Option.map (Tree.rename f))) c
      extendsClause extendsClause :=
  introduced_mirrors (eatKeyword_mirrors _) name_mirrored

theorem implementsClause_mirrors :
    Mirrors f (Prod.map (Option.map (Tree.rename f)) (Option.map (Tree.rename f))) c
      implementsClause implementsClause :=
  introduced_mirrors (eatKeyword_mirrors _) nameList_mirrored

theorem anonymousClass_mirrored (hr : r.Mirrored f) : (anonymousClass r).Mirrored f := by
  refine fun c => (attributes_mirrored hr c).bind fun attributes c₁ => ?_
  refine (expectKeyword_mirrors _).bind fun keyword c₂ => ?_
  refine (optional_mirrors (by simp) fun _ => arguments_mirrored hr c₂).bind
    fun arguments c₃ => ?_
  refine extendsClause_mirrors.bind fun parent c₄ => ?_
  refine implementsClause_mirrors.bind fun interfaces c₅ => ?_
  exact (classBody_mirrors hr).bind fun body c₆ => .pure (by simp [ClassBody.rename])

theorem namespaceStatement_mirrors (hr : r.Mirrored f) (hc : c.seesInfix = false) :
    Mirrors f (Tree.rename f) c (namespaceStatement r) (namespaceStatement r) := by
  refine (token_mirrors hc).bind fun keyword c₁ => ?_
  refine (optional_mirrors (by simp) fun _ => name_mirrored c₁).bind fun label c₂ => .get ?_
  refine .ite (by simp) (fun hb => ?_) fun _ => ?_
  · refine (token_mirrors (Cursor.not_infix_of_sees hb rfl)).bind fun left c₃ => ?_
    refine (Nested.statements_mirrored hr (by simp) c₃).bind fun body c₄ => ?_
    exact (expect_mirrors (by decide)).bind fun right c₅ => .pure (by simp)
  · exact (statementEnd_mirrored c₂).bind fun close c₃ => .pure (by simp)

theorem importType_mirrors :
    Mirrors f (Option.map (Tree.rename f)) c importType importType :=
  eatIf_mirrors (by simp) fun hc =>
    Cursor.not_infix_of_seesAnyKeyword (Bool.and_eq_true_iff.mp hc).1

theorem useClause_mirrors (importType : Option Tree) (label : Tree) :
    Mirrors f (Tree.rename f) c (useClause importType label)
      (useClause (importType.map (Tree.rename f)) (label.rename f)) :=
  (introduced_mirrors (eatKeyword_mirrors _) identifier_mirrored).bind
    fun _ _ => .pure (by simp)

theorem plainUseClause_mirrored : plainUseClause.Mirrored f :=
  fun c => (name_mirrored c).bind fun label _ => useClause_mirrors none label

theorem typedUseClause_mirrored : typedUseClause.Mirrored f :=
  fun _ => importType_mirrors.bind fun kind d =>
    (name_mirrored d).bind fun label _ => useClause_mirrors kind label

theorem useStatement_mirrors (hc : c.seesInfix = false) :
    Mirrors f (Tree.rename f) c useStatement useStatement := by
  refine (token_mirrors hc).bind fun keyword c₁ => ?_
  refine importType_mirrors.bind fun kind c₂ => ?_
  refine (name_mirrored c₂).bind fun first c₃ => .get (.ite (by simp) (fun hg => ?_) fun _ => ?_)
  · simp only [Bool.and_eq_true] at hg
    have hn := Cursor.not_atEnd_of_sees hg.1
    refine .leaf (Cursor.not_infix_of_sees hg.1 rfl) ?_
    rw [Cursor.peek_one hn] at hg
    refine (token_mirrors (Cursor.not_infix_of_sees hg.2 rfl)).bind fun left c₄ => ?_
    refine (commaList_mirrored _ typedUseClause_mirrored c₄).bind fun clauses c₅ => ?_
    refine (expect_mirrors (by decide)).bind fun right c₆ => ?_
    exact (statementEnd_mirrored c₆).bind fun close c₇ => .pure (by simp)
  · refine (useClause_mirrors none first).bind fun clause c₄ => ?_
    refine (gatherPairs_mirrors (by simp) (fun _ hc => Cursor.not_infix_of_sees hc rfl)
      plainUseClause_mirrored).bind fun rest c₅ => ?_
    exact (statementEnd_mirrored c₅).bind fun close c₆ => .pure (by simp)

theorem constantDeclaration_mirrors (hr : r.Mirrored f) (hc : c.seesInfix = false) :
    Mirrors f (Tree.rename f) c (constantDeclaration r) (constantDeclaration r) := by
  refine (token_mirrors hc).bind fun keyword c₁ => ?_
  refine (commaList_mirrored _ (constantAssignment_mirrored hr) c₁).bind fun list c₂ => ?_
  exact (statementEnd_mirrored c₂).bind fun close c₃ => .pure (by simp)

section Declarations

variable (hr : r.Mirrored f) (attributes : Tree)
include hr

theorem classDeclaration_mirrors :
    Mirrors f (Tree.rename f) c (classDeclaration r attributes)
      (classDeclaration r (attributes.rename f)) := by
  refine (modifiers_mirrored _ c).bind fun modifiers c₁ => ?_
  refine (expectKeyword_mirrors _).bind fun keyword c₂ => ?_
  refine (identifier_mirrored c₂).bind fun label c₃ => ?_
  refine extendsClause_mirrors.bind fun parent c₄ => ?_
  refine implementsClause_mirrors.bind fun interfaces c₅ => ?_
  exact (classBody_mirrors hr).bind fun body c₆ => .pure (by simp [ClassBody.rename])

theorem interfaceDeclaration_mirrors (hc : c.seesInfix = false) :
    Mirrors f (Tree.rename f) c (interfaceDeclaration r attributes)
      (interfaceDeclaration r (attributes.rename f)) := by
  refine (token_mirrors hc).bind fun keyword c₁ => ?_
  refine (identifier_mirrored c₁).bind fun label c₂ => ?_
  refine (introduced_mirrors (eatKeyword_mirrors _) nameList_mirrored).bind fun parents c₃ => ?_
  exact (classBody_mirrors hr).bind fun body c₄ => .pure (by simp [ClassBody.rename])

theorem traitDeclaration_mirrors (hc : c.seesInfix = false) :
    Mirrors f (Tree.rename f) c (traitDeclaration r attributes)
      (traitDeclaration r (attributes.rename f)) := by
  refine (token_mirrors hc).bind fun keyword c₁ => ?_
  refine (identifier_mirrored c₁).bind fun label c₂ => ?_
  exact (classBody_mirrors hr).bind fun body c₃ => .pure (by simp [ClassBody.rename])

theorem enumDeclaration_mirrors (hc : c.seesInfix = false) :
    Mirrors f (Tree.rename f) c (enumDeclaration r attributes)
      (enumDeclaration r (attributes.rename f)) := by
  refine (token_mirrors hc).bind fun keyword c₁ => ?_
  refine (identifier_mirrored c₁).bind fun label c₂ => ?_
  refine (introduced_mirrors (eat_mirrors .colon rfl) (typeDeclaration_mirrored hr)).bind
    fun backing c₃ => ?_
  refine implementsClause_mirrors.bind fun interfaces c₄ => ?_
  exact (classBody_mirrors hr).bind fun body c₅ => .pure (by simp [ClassBody.rename])

theorem declaration_mirrors :
    Mirrors f (Option.map (Tree.rename f)) c (declaration r attributes)
      (declaration r (attributes.rename f)) := by
  refine .get (.ite (by simp) (fun _ => ?_) fun _ => .ite (by simp) (fun _ => ?_) fun _ =>
    .ite (by simp) (fun _ => .pure rfl) fun _ => .ite (by simp) (fun hk => ?_) fun _ =>
    .ite (by simp) (fun hk => ?_) fun _ => .ite (by simp) (fun hk => ?_) fun _ => .pure rfl)
  · exact (functionDeclaration_mirrors hr attributes).map fun _ => rfl
  · exact (classDeclaration_mirrors hr attributes).map fun _ => rfl
  all_goals have hc := Cursor.not_infix_of_seesKeyword (Bool.and_eq_true_iff.mp hk).1
  · exact (interfaceDeclaration_mirrors hr attributes hc).map fun _ => rfl
  · exact (traitDeclaration_mirrors hr attributes hc).map fun _ => rfl
  · exact (enumDeclaration_mirrors hr attributes hc).map fun _ => rfl

end Declarations

end PhpSyntax.Grammar
