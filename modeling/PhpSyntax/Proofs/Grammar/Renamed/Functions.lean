import PhpSyntax.Proofs.Grammar.Renamed.Combinators

namespace PhpSyntax.Grammar

open Production

variable {f : Renaming} {r : Nested} {c : Cursor}

theorem argument_mirrored (hr : r.Mirrored f) : (argument r).Mirrored f := by
  refine fun c => .get (.ite (by simp) (fun hc => ?_) fun _ => .ite (by simp) (fun hc => ?_) ?_)
  · simp only [Bool.and_eq_true] at hc
    have hn := Cursor.not_atEnd_of_seesKind hc.1 (by decide)
    refine .leaf (Cursor.not_infix_of_seesKind hc.1 (by decide)) ?_
    rw [Cursor.peek_one hn] at hc
    refine (token_mirrors (Cursor.not_infix_of_sees hc.2 rfl)).bind fun colon c₁ => ?_
    exact (hr.expression c₁).bind fun value c₂ => .pure (by simp)
  · refine (token_mirrors (Cursor.not_infix_of_sees hc rfl)).bind fun ellipsis c₁ => ?_
    exact (hr.expression c₁).bind fun value c₂ => .pure (by simp)
  · exact fun _ => (hr.expression c).bind fun value c₁ => .pure (by simp)

theorem arguments_mirrored (hr : r.Mirrored f) : (arguments r).Mirrored f := by
  refine fun c => (expect_mirrors (by decide)).bind fun left c₁ => ?_
  refine .get (.ite (by simp) (fun hc => ?_) ?_)
  · simp only [Bool.and_eq_true] at hc
    have hn := Cursor.not_atEnd_of_sees hc.1
    refine .leaf (Cursor.not_infix_of_sees hc.1 rfl) ?_
    rw [Cursor.peek_one hn] at hc
    exact (token_mirrors (Cursor.not_infix_of_sees hc.2 rfl)).bind fun right c₂ => .pure (by simp)
  · refine fun _ => (commaList_mirrored _ (argument_mirrored hr) c₁).bind fun list c₂ => ?_
    exact (expect_mirrors (by decide)).bind fun right c₃ => .pure (by simp)

theorem attributeUse_mirrored (hr : r.Mirrored f) : (attributeUse r).Mirrored f := by
  refine fun c => (name_mirrored c).bind fun label c₁ => ?_
  refine (optional_mirrors (by simp) fun _ => arguments_mirrored hr c₁).bind fun args c₂ => ?_
  exact .pure (by simp)

theorem attributeGroup_mirrors (hr : r.Mirrored f) (hc : c.seesInfix = false) :
    Mirrors f (Tree.rename f) c (attributeGroup r) (attributeGroup r) := by
  refine (token_mirrors hc).bind fun left c₁ => ?_
  refine (commaList_mirrored _ (attributeUse_mirrored hr) c₁).bind fun list c₂ => ?_
  exact (expect_mirrors (by decide)).bind fun right c₃ => .pure (by simp)

theorem attributes_mirrored (hr : r.Mirrored f) : (attributes r).Mirrored f :=
  fun _ => (gatherTrees_mirrors (by simp) fun _ hc => attributeGroup_mirrors hr
    (Cursor.not_infix_of_sees hc rfl)).bind fun _ _ => .pure rfl

theorem typeName_mirrored : typeName.Mirrored f := by
  refine fun c => .get (.ite (by simp) (fun _ => .expected) fun hc => ?_)
  have hid : c.seesKind .identifier = true := by simpa using hc
  have hkind : c.current.kind = .identifier := by simpa [Cursor.seesKind] using hid
  refine .ite (by rw [Cursor.current_rename, f.spellsAny_apply _ hkind]) (fun _ => ?_) fun _ => ?_
  · exact leaf_mirrors (Cursor.not_infix_of_seesKind hid (by decide))
  · exact name_mirrored c

theorem typeAtom_mirrored (hr : r.Mirrored f) : (typeAtom r).Mirrored f := by
  refine fun c => .get (.ite (by simp) (fun hc => ?_) fun _ => ?_)
  · refine (token_mirrors (Cursor.not_infix_of_sees hc rfl)).bind fun left c₁ => ?_
    refine (hr.typeAtom c₁).bind fun first c₂ => ?_
    refine (gatherPairs_mirrors (by simp) (fun _ hc => Cursor.not_infix_of_sees hc rfl)
      hr.typeAtom).bind fun rest c₃ => ?_
    exact (expect_mirrors (by decide)).bind fun right c₄ => .pure (by simp)
  · exact (typeName_mirrored c).bind fun label c₁ => .pure (by simp)

theorem not_infix_of_seesIntersection (h : c.seesIntersection = true) : c.seesInfix = false := by
  simp only [Cursor.seesIntersection, Bool.and_eq_true] at h
  exact Cursor.not_infix_of_sees h.1 rfl

theorem typeDeclaration_mirrored (hr : r.Mirrored f) : (typeDeclaration r).Mirrored f := by
  refine fun c => .get (.ite (by simp) (fun hc => ?_) fun _ => ?_)
  · refine (token_mirrors (Cursor.not_infix_of_sees hc rfl)).bind fun query c₁ => ?_
    exact (typeName_mirrored c₁).bind fun label c₂ => .pure (by simp)
  · refine (typeAtom_mirrored hr c).bind fun first c₁ => .get ?_
    refine .ite (by simp) (fun _ => ?_) fun _ => .ite (by simp) (fun _ => ?_) fun _ => .pure rfl
    · exact (gatherPairs_mirrors (by simp) (fun _ hc => Cursor.not_infix_of_sees hc rfl)
        hr.typeAtom).bind fun rest c₂ => .pure (by simp)
    · exact (gatherPairs_mirrors (by simp) (fun _ => not_infix_of_seesIntersection)
        hr.typeAtom).bind fun rest c₂ => .pure (by simp)

theorem returnTypeClause_mirrors (hr : r.Mirrored f) :
    Mirrors f (Option.map (Tree.rename f)) c (returnTypeClause r) (returnTypeClause r) := by
  refine (eat_mirrors .colon rfl).bind fun o c₁ => ?_
  cases o with
  | none => exact .pure rfl
  | some colon => exact (typeDeclaration_mirrored hr c₁).bind fun type c₂ => .pure (by simp)

theorem defaultValue_mirrors (hr : r.Mirrored f) :
    Mirrors f (Prod.map (Option.map (Tree.rename f)) (Option.map (Tree.rename f))) c
      (defaultValue r) (defaultValue r) :=
  introduced_mirrors (eat_mirrors .equal rfl) hr.expression

theorem parameter_mirrored (hr : r.Mirrored f) : (parameter r).Mirrored f := by
  refine fun c => (attributes_mirrored hr c).bind fun attributes c₁ => ?_
  refine (modifiers_mirrored _ c₁).bind fun modifiers c₂ => ?_
  refine (optional_mirrors (by simp) fun _ => typeDeclaration_mirrored hr c₂).bind
    fun declared c₃ => ?_
  refine (eat_mirrors .ampersand rfl).bind fun byReference c₄ => ?_
  refine (eat_mirrors .ellipsis rfl).bind fun ellipsis c₅ => ?_
  refine (variableName_mirrored c₅).bind fun variableName c₆ => ?_
  exact (defaultValue_mirrors hr).bind fun value c₇ => .pure (by simp)

theorem parameterList_mirrored (hr : r.Mirrored f) : (parameterList r).Mirrored f := by
  refine fun c => (expect_mirrors (by decide)).bind fun left c₁ => ?_
  refine (commaList_mirrored _ (parameter_mirrored hr) c₁).bind fun list c₂ => ?_
  exact (expect_mirrors (by decide)).bind fun right c₃ => .pure (by simp)

theorem functionDeclaration_mirrors (hr : r.Mirrored f) (attributes : Tree) :
    Mirrors f (Tree.rename f) c (functionDeclaration r attributes)
      (functionDeclaration r (attributes.rename f)) := by
  refine (expectKeyword_mirrors _).bind fun keyword c₁ => ?_
  refine (eat_mirrors .ampersand rfl).bind fun byReference c₂ => ?_
  refine (identifier_mirrored c₂).bind fun label c₃ => ?_
  refine (parameterList_mirrored hr c₃).bind fun parameters c₄ => ?_
  refine (returnTypeClause_mirrors hr).bind fun returnType c₅ => ?_
  exact (Nested.block_mirrored hr c₅).bind fun body c₆ => .pure (by simp)

theorem capturedVariable_mirrored : capturedVariable.Mirrored f := by
  refine fun c => .get (.ite (by simp) (fun hc => ?_) fun _ => variableName_mirrored c)
  refine (token_mirrors (Cursor.not_infix_of_sees hc rfl)).bind fun ampersand c₁ => ?_
  exact (variableName_mirrored c₁).bind fun variableName c₂ => .pure (by simp)

theorem lexicalVariables_mirrors (hc : c.seesInfix = false) :
    Mirrors f (Tree.rename f) c lexicalVariables lexicalVariables := by
  refine (token_mirrors hc).bind fun keyword c₁ => ?_
  refine (expect_mirrors (by decide)).bind fun left c₂ => ?_
  refine (commaList_mirrored _ capturedVariable_mirrored c₂).bind fun list c₃ => ?_
  exact (expect_mirrors (by decide)).bind fun right c₄ => .pure (by simp)

theorem arrowFunction_mirrors (hr : r.Mirrored f) (attributes : Tree) (modifier : Option Tree)
    (hc : c.seesInfix = false) :
    Mirrors f (Tree.rename f) c (arrowFunction r attributes modifier)
      (arrowFunction r (attributes.rename f) (modifier.map (Tree.rename f))) := by
  refine (token_mirrors hc).bind fun keyword c₁ => ?_
  refine (eat_mirrors .ampersand rfl).bind fun byReference c₂ => ?_
  refine (parameterList_mirrored hr c₂).bind fun parameters c₃ => ?_
  refine (returnTypeClause_mirrors hr).bind fun returnType c₄ => ?_
  refine (expect_mirrors (by decide)).bind fun arrow c₅ => ?_
  exact (hr.expression c₅).bind fun body c₆ => .pure (by simp)

theorem closure_mirrors (hr : r.Mirrored f) (attributes : Tree) :
    Mirrors f (Tree.rename f) c (closure r attributes) (closure r (attributes.rename f)) := by
  refine (eatKeyword_mirrors _).bind fun modifier c₁ => .get (.ite (by simp) ?_ fun _ => ?_)
  · exact fun hc => arrowFunction_mirrors hr _ _ (Cursor.not_infix_of_seesKeyword hc)
  refine (expectKeyword_mirrors _).bind fun keyword c₂ => ?_
  refine (eat_mirrors .ampersand rfl).bind fun byReference c₃ => ?_
  refine (parameterList_mirrored hr c₃).bind fun parameters c₄ => ?_
  refine (optional_mirrors (by simp) fun hc => lexicalVariables_mirrors
    (Cursor.not_infix_of_seesKeyword hc)).bind fun captured c₅ => ?_
  refine (returnTypeClause_mirrors hr).bind fun returnType c₆ => ?_
  exact (Nested.block_mirrored hr c₆).bind fun body c₇ => .pure (by simp)

end PhpSyntax.Grammar
