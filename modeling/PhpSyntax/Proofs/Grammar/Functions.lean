import PhpSyntax.Grammar.Function
import PhpSyntax.Proofs.Grammar.Combinators

namespace PhpSyntax.Grammar

open Production

variable {r : Nested} {c c' : Cursor} {us : List Tree}

theorem argument_parses (hr : r.Parses) : (argument r).Parses := by
  intro c us c' h
  refine .get ?_
  split
  · next hc =>
    simp only [Bool.and_eq_true] at hc
    have hn := Cursor.not_atEnd_of_seesKind hc.1 nofun
    refine Ensures.leaf ?_
    have h₁ := h.leaf (k := .nameIdentifier) hn hc.1
    rw [Cursor.peek_one hn] at hc
    refine (token_took h₁ (Cursor.not_atEnd_of_sees hc.2)).bind fun colon c₂ h₂ => ?_
    refine (hr.expression h₂.reads).bind fun value c₃ h₃ => ?_
    exact .pure (.plain (by simpa using h₃.reads) (by simp) rfl)
  split
  · next hc =>
    refine (token_took h (Cursor.not_atEnd_of_sees hc)).bind fun ellipsis c₁ h₁ => ?_
    refine (hr.expression h₁.reads).bind fun value c₂ h₂ => ?_
    have h₃ : Parsed c us (.node .spreadArgument [ellipsis, value]) c₂ :=
      .plain (by simpa using h₂.reads) (by simp [h₁.consumed]) rfl
    exact .pure (.plain (by simpa using h₃.reads) (by simpa using h₃.consumed) rfl)
  · refine (hr.expression h).bind fun value c₁ h₁ => ?_
    exact .pure (.plain (by simpa using h₁.reads) (by simpa using h₁.consumed) rfl)

theorem arguments_parses (hr : r.Parses) : (arguments r).Parses := by
  intro c us c' h
  refine (expect_took _ h).bind fun left c₁ h₁ => .get ?_
  split
  · next hc =>
    simp only [Bool.and_eq_true] at hc
    have hn := Cursor.not_atEnd_of_sees hc.1
    refine Ensures.leaf ?_
    have h₂ := h₁.reads.token hn
    rw [Cursor.peek_one hn] at hc
    refine (token_took h₂ (Cursor.not_atEnd_of_sees hc.2)).bind fun right c₃ h₃ => ?_
    exact .pure (.plain (by simpa using h₃.reads) (by simp) rfl)
  · refine (commaList_reads _ (argument_parses hr) h₁.reads).bind fun list c₂ h₂ => ?_
    refine (expect_took _ h₂).bind fun right c₃ h₃ => ?_
    exact .pure (.plain (by simpa using h₃.reads) (by simp [h₁.consumed]) rfl)

theorem attributeUse_parses (hr : r.Parses) : (attributeUse r).Parses := by
  intro c us c' h
  refine (name_parses h).bind fun label c₁ h₁ => ?_
  refine (optional_reads h₁.reads fun _ => arguments_parses hr h₁.reads).bind fun args c₂ h₂ => ?_
  exact .pure (.plain (by simpa [filled_cons] using h₂) (by simp [h₁.consumed]) rfl)

theorem attributeGroup_parsed (hr : r.Parses) (h : Reads c us c') (hc : ¬ c'.atEnd = true) :
    (attributeGroup r).Ensures c' (Parsed c us) := by
  refine (token_took h hc).bind fun left c₁ h₁ => ?_
  refine (commaList_reads _ (attributeUse_parses hr) h₁.reads).bind fun list c₂ h₂ => ?_
  refine (expect_took _ h₂).bind fun right c₃ h₃ => ?_
  exact .pure (.plain (by simpa using h₃.reads) (by simp [h₁.consumed]) rfl)

theorem attributes_reads (hr : r.Parses) (h : Reads c us c') :
    (attributes r).Ensures c' fun t d => Reads c (us ++ [t]) d := by
  refine (gatherTrees_list (fun us c' h hc => ?_) h).bind fun slots d hd => .pure hd
  exact attributeGroup_parsed hr h (Cursor.not_atEnd_of_sees hc)

theorem typeName_parses : typeName.Parses := by
  intro c us c' h
  refine .get ?_
  split
  · exact .expected
  · next hc =>
    have hid : c'.seesKind .identifier = true := by simpa using hc
    split
    · exact leaf_parsed h (Cursor.not_atEnd_of_seesKind hid nofun) hid nofun
    · exact name_parses h

theorem isSeparator_of_sees {p : Punctuator} (hp : p ∈ [Punctuator.comma, .pipe, .ampersand])
    (hc : c.sees p = true) :
    [Punctuator.comma, .pipe, .ampersand].any c.current.isPunctuator = true :=
  List.any_eq_true.mpr ⟨p, hp, hc⟩

theorem typeAtom_parses (hr : r.Parses) : (typeAtom r).Parses := by
  intro c us c' h
  refine .get ?_
  split
  · next hc =>
    refine (token_took h (Cursor.not_atEnd_of_sees hc)).bind fun left c₁ h₁ => ?_
    refine (hr.typeAtom h₁.reads).bind fun first c₂ h₂ => ?_
    refine (gatherPairs_reads hr.typeAtom (fun d => isSeparator_of_sees (by simp)) h₂.reads).bind
      fun rest c₃ h₃ => ?_
    have h₄ : Parsed c (us ++ [left]) (.node .intersectionType (some first :: rest)) c₃ :=
      .node (by simpa using h₃.1) (by simp [h₂.consumed])
        ⟨rfl, fun _ => h₃.2.alternates h₂.not_separator⟩
    refine (expect_took _ h₄.reads).bind fun right c₅ h₅ => ?_
    exact .pure (.plain (by simpa using h₅.reads) (by simp [h₁.consumed]) rfl)
  · refine (typeName_parses h).bind fun label c₁ h₁ => ?_
    exact .pure (.plain (by simpa using h₁.reads) (by simpa using h₁.consumed) rfl)

theorem isSeparator_of_seesIntersection (hc : c.seesIntersection = true) :
    [Punctuator.comma, .pipe, .ampersand].any c.current.isPunctuator = true := by
  simp only [Cursor.seesIntersection, Bool.and_eq_true] at hc
  exact isSeparator_of_sees (by simp) hc.1

theorem typeDeclaration_parses (hr : r.Parses) : (typeDeclaration r).Parses := by
  intro c us c' h
  refine .get ?_
  split
  · next hc =>
    refine (token_took h (Cursor.not_atEnd_of_sees hc)).bind fun query c₁ h₁ => ?_
    refine (typeName_parses h₁.reads).bind fun label c₂ h₂ => ?_
    exact .pure (.plain (by simpa using h₂.reads) (by simp [h₁.consumed]) rfl)
  · refine (typeAtom_parses hr h).bind fun first c₁ h₁ => .get ?_
    split
    · refine (gatherPairs_reads hr.typeAtom (fun d => isSeparator_of_sees (by simp))
        h₁.reads).bind fun rest c₂ h₂ => ?_
      exact .pure (.node (by simpa using h₂.1) (by simp [h₁.consumed])
        ⟨rfl, fun _ => h₂.2.alternates h₁.not_separator⟩)
    split
    · refine (gatherPairs_reads hr.typeAtom (fun d => isSeparator_of_seesIntersection)
        h₁.reads).bind fun rest c₂ h₂ => ?_
      exact .pure (.node (by simpa using h₂.1) (by simp [h₁.consumed])
        ⟨rfl, fun _ => h₂.2.alternates h₁.not_separator⟩)
    · exact .pure h₁

theorem returnTypeClause_reads (hr : r.Parses) (h : Reads c us c') :
    (returnTypeClause r).Ensures c' fun o d => Reads c (us ++ o.toList) d := by
  refine (eat_reads .colon h).bind fun o c₁ h₁ => ?_
  cases o with
  | none => exact .pure h₁
  | some colon =>
    refine (typeDeclaration_parses hr h₁).bind fun type c₂ h₂ => .pure ?_
    have h₃ : Parsed c us (.node .returnTypeClause [colon, type]) c₂ :=
      .plain (by simpa using h₂.reads) (by simp [h₂.consumed]) rfl
    exact h₃.reads

theorem defaultValue_reads (hr : r.Parses) (h : Reads c us c') :
    (defaultValue r).Ensures c' fun p d => Reads c (us ++ p.1.toList ++ p.2.toList) d :=
  introduced_reads (eat_reads .equal h) hr.expression

theorem parameter_parses (hr : r.Parses) : (parameter r).Parses := by
  intro c us c' h
  refine (attributes_reads hr h).bind fun attributes c₁ h₁ => ?_
  refine (modifiers_reads _ h₁).bind fun modifiers c₂ h₂ => ?_
  refine (optional_reads h₂ fun _ => typeDeclaration_parses hr h₂).bind fun declared c₃ h₃ => ?_
  refine (eat_reads .ampersand h₃).bind fun byReference c₄ h₄ => ?_
  refine (eat_reads .ellipsis h₄).bind fun ellipsis c₅ h₅ => ?_
  refine (variableName_parses h₅).bind fun variableName c₆ h₆ => ?_
  refine (defaultValue_reads hr h₆.reads).bind fun value c₇ h₇ => ?_
  exact .pure (.plain (by simpa [filled_cons] using h₇) (by simp [filled_cons, h₆.consumed]) rfl)

theorem parameterList_parses (hr : r.Parses) : (parameterList r).Parses := by
  intro c us c' h
  refine (expect_took _ h).bind fun left c₁ h₁ => ?_
  refine (commaList_reads _ (parameter_parses hr) h₁.reads).bind fun list c₂ h₂ => ?_
  refine (expect_took _ h₂).bind fun right c₃ h₃ => ?_
  exact .pure (.plain (by simpa using h₃.reads) (by simp [h₁.consumed]) rfl)

theorem functionDeclaration_parsed (hr : r.Parses) {attributes : Tree}
    (h : Reads c (us ++ [attributes]) c') :
    (functionDeclaration r attributes).Ensures c' (Parsed c us) := by
  refine (expectKeyword_took _ h).bind fun keyword c₁ h₁ => ?_
  refine (eat_reads .ampersand h₁.reads).bind fun byReference c₂ h₂ => ?_
  refine (identifier_parses h₂).bind fun label c₃ h₃ => ?_
  refine (parameterList_parses hr h₃.reads).bind fun parameters c₄ h₄ => ?_
  refine (returnTypeClause_reads hr h₄.reads).bind fun returnType c₅ h₅ => ?_
  refine (Nested.block_parses hr h₅).bind fun body c₆ h₆ => ?_
  exact .pure (.plain (by simpa [filled_cons] using h₆.reads)
    (by simp [filled_cons, h₁.consumed]) rfl)

theorem capturedVariable_parses : capturedVariable.Parses := by
  intro c us c' h
  refine .get ?_
  split
  · next hc =>
    refine (token_took h (Cursor.not_atEnd_of_sees hc)).bind fun ampersand c₁ h₁ => ?_
    refine (variableName_parses h₁.reads).bind fun variableName c₂ h₂ => ?_
    exact .pure (.plain (by simpa using h₂.reads) (by simp [h₁.consumed]) rfl)
  · exact variableName_parses h

theorem lexicalVariables_parsed (h : Reads c us c') (hc : ¬ c'.atEnd = true) :
    lexicalVariables.Ensures c' (Parsed c us) := by
  refine (token_took h hc).bind fun keyword c₁ h₁ => ?_
  refine (expect_took _ h₁.reads).bind fun left c₂ h₂ => ?_
  refine (commaList_reads _ capturedVariable_parses h₂.reads).bind fun list c₃ h₃ => ?_
  refine (expect_took _ h₃).bind fun right c₄ h₄ => ?_
  exact .pure (.plain (by simpa using h₄.reads) (by simp [h₁.consumed]) rfl)

theorem arrowFunction_parsed (hr : r.Parses) {attributes : Tree} {modifier : Option Tree}
    (h : Reads c (us ++ [attributes] ++ modifier.toList) c') (hc : ¬ c'.atEnd = true) :
    (arrowFunction r attributes modifier).Ensures c' (Parsed c us) := by
  refine (token_took h hc).bind fun keyword c₁ h₁ => ?_
  refine (eat_reads .ampersand h₁.reads).bind fun byReference c₂ h₂ => ?_
  refine (parameterList_parses hr h₂).bind fun parameters c₃ h₃ => ?_
  refine (returnTypeClause_reads hr h₃.reads).bind fun returnType c₄ h₄ => ?_
  refine (expect_took _ h₄).bind fun arrow c₅ h₅ => ?_
  refine (hr.expression h₅.reads).bind fun body c₆ h₆ => ?_
  exact .pure (.plain (by simpa [filled_cons] using h₆.reads)
    (by simp [filled_cons, h₁.consumed]) rfl)

theorem closure_parsed (hr : r.Parses) {attributes : Tree}
    (h : Reads c (us ++ [attributes]) c') :
    (closure r attributes).Ensures c' (Parsed c us) := by
  refine (eatKeyword_reads _ h).bind fun modifier c₁ h₁ => .get ?_
  split
  · next hc => exact arrowFunction_parsed hr h₁ (Cursor.not_atEnd_of_seesKeyword hc)
  refine (expectKeyword_took _ h₁).bind fun keyword c₂ h₂ => ?_
  refine (eat_reads .ampersand h₂.reads).bind fun byReference c₃ h₃ => ?_
  refine (parameterList_parses hr h₃).bind fun parameters c₄ h₄ => ?_
  refine (optional_reads h₄.reads fun hc => lexicalVariables_parsed h₄.reads
    (Cursor.not_atEnd_of_seesKeyword hc)).bind fun captured c₅ h₅ => ?_
  refine (returnTypeClause_reads hr h₅).bind fun returnType c₆ h₆ => ?_
  refine (Nested.block_parses hr h₆).bind fun body c₇ h₇ => ?_
  exact .pure (.plain (by simpa [filled_cons] using h₇.reads)
    (by simp [filled_cons, h₂.consumed]) rfl)

end PhpSyntax.Grammar
