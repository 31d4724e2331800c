import PhpSyntax.Grammar.Declaration
import PhpSyntax.Proofs.Grammar.Functions

namespace PhpSyntax.Grammar

open Production

variable {r : Nested} {c c' : Cursor} {us : List Tree}

theorem constantAssignment_parses (hr : r.Parses) : (constantAssignment r).Parses := by
  intro c us c' h
  refine (identifier_parses h).bind fun label c₁ h₁ => ?_
  refine (expect_took _ h₁.reads).bind fun equal c₂ h₂ => ?_
  refine (hr.expression h₂.reads).bind fun value c₃ h₃ => ?_
  exact .pure (.plain (by simpa using h₃.reads) (by simp [h₁.consumed]) rfl)

theorem initialisedVariable_parses (hr : r.Parses) : (initialisedVariable r).Parses := by
  intro c us c' h
  refine (variableName_parses h).bind fun variableName c₁ h₁ => ?_
  refine (defaultValue_reads hr h₁.reads).bind fun value c₂ h₂ => ?_
  exact .pure (.plain (by simpa [filled_cons] using h₂) (by simp [h₁.consumed]) rfl)

/-- A punctuator that was seen one token ahead stands right after the name. -/
theorem name_before {p : Punctuator} (h : Reads c us c')
    (hp : (c'.peek 1).isPunctuator p = true) :
    name.Ensures c' fun t d => Parsed c us t d ∧ d.sees p = true := by
  refine .get (.get ?_)
  split
  · next hid =>
    have hn := Cursor.not_atEnd_of_seesKind hid nofun
    rw [Cursor.peek_one hn] at hp
    rintro t d hr
    cases hr
    refine ⟨⟨⟨h.leaf hn ?_, by simp⟩, ?_⟩, hp⟩
    · split <;> exact hid
    · simp only [Tree.kind]
      split <;> decide
  · exact .expected

theorem traitMethodReference_parses : traitMethodReference.Parses := by
  intro c us c' h
  refine .get ?_
  split
  · next hc =>
    refine (name_before h hc).bind fun traitName c₁ h₁ => ?_
    refine (token_took h₁.1.reads (Cursor.not_atEnd_of_sees h₁.2)).bind fun colons c₂ h₂ => ?_
    refine (identifier_parses h₂.reads).bind fun label c₃ h₃ => ?_
    exact .pure (.plain (by simpa using h₃.reads) (by simp [h₁.1.consumed]) rfl)
  · refine (identifier_parses h).bind fun label c₁ h₁ => ?_
    exact .pure (.plain (by simpa using h₁.reads) (by simp [h₁.consumed]) rfl)

theorem traitAdaptation_parses : traitAdaptation.Parses := by
  intro c us c' h
  refine (traitMethodReference_parses h).bind fun reference c₁ h₁ => ?_
  refine (eatKeyword_reads _ h₁.reads).bind fun o c₂ h₂ => ?_
  cases o with
  | some insteadof =>
    refine (nameList_parses h₂).bind fun names c₃ h₃ => ?_
    refine (statementEnd_took h₃.reads).bind fun close c₄ h₄ => ?_
    exact .pure (.plain (by simpa using h₄.reads) (by simp [h₁.consumed]) rfl)
  | none =>
    refine (expectKeyword_took _ h₂).bind fun asKeyword c₃ h₃ => ?_
    refine (eatIf_reads h₃.reads Cursor.not_atEnd_of_seesAnyKeyword).bind fun modifier c₄ h₄ => ?_
    refine (optional_reads h₄ fun _ => identifier_parses h₄).bind fun otherName c₅ h₅ => ?_
    refine (statementEnd_took h₅).bind fun close c₆ h₆ => ?_
    exact .pure (.plain (by simpa [filled_cons] using h₆.reads) (by simp [h₁.consumed]) rfl)

theorem useTraitDeclaration_parsed (h : Reads c us c') (hc : ¬ c'.atEnd = true) :
    useTraitDeclaration.Ensures c' (Parsed c us) := by
  refine (token_took h hc).bind fun keyword c₁ h₁ => ?_
  refine (nameList_parses h₁.reads).bind fun traits c₂ h₂ => .get ?_
  split
  · refine (statementEnd_took h₂.reads).bind fun close c₃ h₃ => ?_
    exact .pure (.plain (by simpa using h₃.reads) (by simp [h₁.consumed]) rfl)
  · next hb =>
    have hb : c₂.sees .leftCurlyBrace = true := by simpa using hb
    refine (token_took h₂.reads (Cursor.not_atEnd_of_sees hb)).bind fun left c₃ h₃ => ?_
    refine (gatherTrees_list (fun us c' h _ => traitAdaptation_parses h) h₃.reads).bind
      fun adaptations c₄ h₄ => ?_
    refine (expect_took _ h₄).bind fun right c₅ h₅ => ?_
    exact .pure (.plain (by simpa using h₅.reads) (by simp [h₁.consumed]) rfl)

theorem enumCase_parsed (hr : r.Parses) {attributes : Tree}
    (h : Reads c (us ++ [attributes]) c') (hc : ¬ c'.atEnd = true) :
    (enumCase r attributes).Ensures c' (Parsed c us) := by
  refine (token_took h hc).bind fun keyword c₁ h₁ => ?_
  refine (identifier_parses h₁.reads).bind fun label c₂ h₂ => ?_
  refine (defaultValue_reads hr h₂.reads).bind fun value c₃ h₃ => ?_
  refine (statementEnd_took h₃).bind fun close c₄ h₄ => ?_
  exact .pure (.plain (by simpa [filled_cons] using h₄.reads) (by simp [h₁.consumed]) rfl)

theorem classConstant_parsed (hr : r.Parses) {attributes modifiers : Tree}
    (h : Reads c (us ++ [attributes] ++ [modifiers]) c') (hc : ¬ c'.atEnd = true) :
    (classConstant r attributes modifiers).Ensures c' (Parsed c us) := by
  refine (token_took h hc).bind fun keyword c₁ h₁ => ?_
  refine (optional_reads h₁.reads fun _ => typeDeclaration_parses hr h₁.reads).bind
    fun declared c₂ h₂ => ?_
  refine (commaList_reads _ (constantAssignment_parses hr) h₂).bind fun list c₃ h₃ => ?_
  refine (statementEnd_took h₃).bind fun close c₄ h₄ => ?_
  exact .pure (.plain (by simpa [filled_cons] using h₄.reads) (by simp [h₁.consumed]) rfl)

theorem methodDeclaration_parsed (hr : r.Parses) {attributes modifiers : Tree}
    (h : Reads c (us ++ [attributes] ++ [modifiers]) c') (hc : ¬ c'.atEnd = true) :
    (methodDeclaration r attributes modifiers).Ensures c' (Parsed c us) := by
  refine (token_took h hc).bind fun keyword c₁ h₁ => ?_
  refine (eat_reads .ampersand h₁.reads).bind fun byReference c₂ h₂ => ?_
  refine (identifier_parses h₂).bind fun label c₃ h₃ => ?_
  refine (parameterList_parses hr h₃.reads).bind fun parameters c₄ h₄ => ?_
  refine (returnTypeClause_reads hr h₄.reads).bind fun returnType c₅ h₅ => .get ?_
  split
  · refine (statementEnd_took h₅).bind fun body c₆ h₆ => ?_
    exact .pure (.plain (by simpa [filled_cons] using h₆.reads) (by simp [h₁.consumed]) rfl)
  · refine (Nested.block_parses hr h₅).bind fun body c₆ h₆ => ?_
    exact .pure (.plain (by simpa [filled_cons] using h₆.reads) (by simp [h₁.consumed]) rfl)

theorem propertyDeclaration_parsed (hr : r.Parses) {attributes modifiers : Tree}
    (h : Reads c (us ++ [attributes] ++ [modifiers]) c') :
    (propertyDeclaration r attributes modifiers).Ensures c' (Parsed c us) := by
  refine (optional_reads h fun _ => typeDeclaration_parses hr h).bind fun declared c₁ h₁ => ?_
  refine (commaList_reads _ (initialisedVariable_parses hr) h₁).bind fun list c₂ h₂ => ?_
  refine (statementEnd_took h₂).bind fun close c₃ h₃ => ?_
  exact .pure (.plain (by simpa [filled_cons] using h₃.reads)
    (by simp [filled_cons, h₃.consumed]) rfl)

theorem classMember_parses (hr : r.Parses) : (classMember r).Parses := by
  intro c us c' h
  refine .get ?_
  split
  · next hc => exact useTraitDeclaration_parsed h (Cursor.not_atEnd_of_seesKeyword hc)
  refine (attributes_reads hr h).bind fun attributes c₁ h₁ => .get ?_
  split
  · next hc => exact enumCase_parsed hr h₁ (Cursor.not_atEnd_of_seesKeyword hc)
  refine (modifiers_reads _ h₁).bind fun modifiers c₂ h₂ => .get ?_
  split
  · next hc => exact classConstant_parsed hr h₂ (Cursor.not_atEnd_of_seesKeyword hc)
  split
  · next hc => exact methodDeclaration_parsed hr h₂ (Cursor.not_atEnd_of_seesKeyword hc)
  · exact propertyDeclaration_parsed hr h₂

theorem classBody_reads (hr : r.Parses) (h : Reads c us c') :
    (classBody r).Ensures c' fun b d =>
      Reads c (us ++ [b.left, b.members, b.right]) d ∧ b.left.tokens ≠ [] := by
  refine (expect_took _ h).bind fun left c₁ h₁ => ?_
  refine (gatherTrees_list (fun us c' h _ => classMember_parses hr h) h₁.reads).bind
    fun members c₂ h₂ => ?_
  refine (expect_took _ h₂).bind fun right c₃ h₃ => ?_
  exact .pure ⟨by simpa using h₃.reads, h₁.consumed⟩

theorem extendsClause_reads (h : Reads c us c') :
    extendsClause.Ensures c' fun p d => Reads c (us ++ p.1.toList ++ p.2.toList) d :=
  introduced_reads (eatKeyword_reads _ h) name_parses

theorem implementsClause_reads (h : Reads c us c') :
    implementsClause.Ensures c' fun p d => Reads c (us ++ p.1.toList ++ p.2.toList) d :=
  introduced_reads (eatKeyword_reads _ h) nameList_parses

theorem anonymousClass_parses (hr : r.Parses) : (anonymousClass r).Parses := by
  intro c us c' h
  refine (attributes_reads hr h).bind fun attributes c₁ h₁ => ?_
  refine (expectKeyword_took _ h₁).bind fun keyword c₂ h₂ => ?_
  refine (optional_reads h₂.reads fun _ => arguments_parses hr h₂.reads).bind
    fun arguments c₃ h₃ => ?_
  refine (extendsClause_reads h₃).bind fun parent c₄ h₄ => ?_
  refine (implementsClause_reads h₄).bind fun interfaces c₅ h₅ => ?_
  refine (classBody_reads hr h₅).bind fun body c₆ h₆ => ?_
  exact .pure (.plain (by simpa [filled_cons] using h₆.1) (by simp [h₂.consumed]) rfl)

theorem namespaceStatement_parsed (hr : r.Parses) (h : Reads c us c') (hc : ¬ c'.atEnd = true) :
    (namespaceStatement r).Ensures c' (Parsed c us) := by
  refine (token_took h hc).bind fun keyword c₁ h₁ => ?_
  refine (optional_reads h₁.reads fun _ => name_parses h₁.reads).bind fun label c₂ h₂ => .get ?_
  split
  · next hb =>
    refine (token_took h₂ (Cursor.not_atEnd_of_sees hb)).bind fun left c₃ h₃ => ?_
    refine (Nested.statements_reads hr _ h₃.reads).bind fun body c₄ h₄ => ?_
    refine (expect_took _ h₄).bind fun right c₅ h₅ => ?_
    exact .pure (.plain (by simpa [filled_cons] using h₅.reads) (by simp [h₁.consumed]) rfl)
  · refine (statementEnd_took h₂).bind fun close c₃ h₃ => ?_
    exact .pure (.plain (by simpa [filled_cons] using h₃.reads) (by simp [h₁.consumed]) rfl)

theorem importType_reads (h : Reads c us c') :
    importType.Ensures c' fun o d => Reads c (us ++ o.toList) d := by
  refine eatIf_reads h fun hc => ?_
  simp only [Bool.and_eq_true] at hc
  exact Cursor.not_atEnd_of_seesAnyKeyword hc.1

theorem useClause_parsed {importType : Option Tree} {label : Tree}
    (h : Reads c (us ++ importType.toList ++ [label]) c') (hl : label.tokens ≠ []) :
    (useClause importType label).Ensures c' (Parsed c us) := by
  refine (introduced_reads (eatKeyword_reads _ h) identifier_parses).bind fun p c₁ h₁ => ?_
  exact .pure (.plain (by simpa [filled_cons] using h₁) (by simp [filled_cons, hl]) rfl)

theorem plainUseClause_parses : plainUseClause.Parses := by
  intro c us c' h
  refine (name_parses h).bind fun label c₁ h₁ => ?_
  exact useClause_parsed (by simpa using h₁.reads) h₁.consumed

theorem typedUseClause_parses : typedUseClause.Parses := by
  intro c us c' h
  refine (importType_reads h).bind fun kind c₁ h₁ => ?_
  refine (name_parses h₁).bind fun label c₂ h₂ => ?_
  exact useClause_parsed h₂.reads h₂.consumed

theorem useStatement_parsed (h : Reads c us c') (hc : ¬ c'.atEnd = true) :
    useStatement.Ensures c' (Parsed c us) := by
  refine (token_took h hc).bind fun keyword c₁ h₁ => ?_
  refine (importType_reads h₁.reads).bind fun kind c₂ h₂ => ?_
  refine (name_parses h₂).bind fun first c₃ h₃ => .get ?_
  split
  · next hg =>
    simp only [Bool.and_eq_true] at hg
    have hn := Cursor.not_atEnd_of_sees hg.1
    rw [Cursor.peek_one hn] at hg
    refine Ensures.leaf ?_
    refine (token_took (h₃.reads.token hn) (Cursor.not_atEnd_of_sees hg.2)).bind
      fun left c₅ h₅ => ?_
    refine (commaList_reads _ typedUseClause_parses h₅.reads).bind fun clauses c₆ h₆ => ?_
    refine (expect_took _ h₆).bind fun right c₇ h₇ => ?_
    refine (statementEnd_took h₇.reads).bind fun close c₈ h₈ => ?_
    exact .pure (.plain (by simpa [filled_cons] using h₈.reads) (by simp [h₁.consumed]) rfl)
  · have hn : Reads c (us ++ [keyword] ++ kind.toList ++ (none : Option Tree).toList ++ [first]) c₃ := by
      simpa using h₃.reads
    refine (useClause_parsed hn h₃.consumed).bind fun clause c₄ h₄ => ?_
    refine (gatherPairs_reads plainUseClause_parses (fun d => isSeparator_of_sees (by simp))
      h₄.reads).bind fun rest c₅ h₅ => ?_
    have h₆ : Parsed c (us ++ [keyword] ++ kind.toList)
        (.node .separatedList (some clause :: rest)) c₅ :=
      .node (by simpa using h₅.1) (by simp [h₄.consumed])
        ⟨rfl, fun _ => h₅.2.alternates h₄.not_separator⟩
    refine (statementEnd_took h₆.reads).bind fun close c₇ h₇ => ?_
    exact .pure (.plain (by simpa [filled_cons] using h₇.reads) (by simp [h₁.consumed]) rfl)

theorem constantDeclaration_parsed (hr : r.Parses) (h : Reads c us c')
    (hc : ¬ c'.atEnd = true) : (constantDeclaration r).Ensures c' (Parsed c us) := by
  refine (token_took h hc).bind fun keyword c₁ h₁ => ?_
  refine (commaList_reads _ (constantAssignment_parses hr) h₁.reads).bind fun list c₂ h₂ => ?_
  refine (statementEnd_took h₂).bind fun close c₃ h₃ => ?_
  exact .pure (.plain (by simpa using h₃.reads) (by simp [h₁.consumed]) rfl)

theorem classDeclaration_parsed (hr : r.Parses) {attributes : Tree}
    (h : Reads c (us ++ [attributes]) c') :
    (classDeclaration r attributes).Ensures c' (Parsed c us) := by
  refine (modifiers_reads _ h).bind fun modifiers c₁ h₁ => ?_
  refine (expectKeyword_took _ h₁).bind fun keyword c₂ h₂ => ?_
  refine (identifier_parses h₂.reads).bind fun label c₃ h₃ => ?_
  refine (extendsClause_reads h₃.reads).bind fun parent c₄ h₄ => ?_
  refine (implementsClause_reads h₄).bind fun interfaces c₅ h₅ => ?_
  refine (classBody_reads hr h₅).bind fun body c₆ h₆ => ?_
  exact .pure (.plain (by simpa [filled_cons] using h₆.1) (by simp [h₂.consumed]) rfl)

theorem interfaceDeclaration_parsed (hr : r.Parses) {attributes : Tree}
    (h : Reads c (us ++ [attributes]) c') (hc : ¬ c'.atEnd = true) :
    (interfaceDeclaration r attributes).Ensures c' (Parsed c us) := by
  refine (token_took h hc).bind fun keyword c₁ h₁ => ?_
  refine (identifier_parses h₁.reads).bind fun label c₂ h₂ => ?_
  refine (introduced_reads (eatKeyword_reads _ h₂.reads) nameList_parses).bind
    fun parents c₃ h₃ => ?_
  refine (classBody_reads hr h₃).bind fun body c₄ h₄ => ?_
  exact .pure (.plain (by simpa [filled_cons] using h₄.1) (by simp [h₁.consumed]) rfl)

theorem traitDeclaration_parsed (hr : r.Parses) {attributes : Tree}
    (h : Reads c (us ++ [attributes]) c') (hc : ¬ c'.atEnd = true) :
    (traitDeclaration r attributes).Ensures c' (Parsed c us) := by
  refine (token_took h hc).bind fun keyword c₁ h₁ => ?_
  refine (identifier_parses h₁.reads).bind fun label c₂ h₂ => ?_
  refine (classBody_reads hr h₂.reads).bind fun body c₃ h₃ => ?_
  exact .pure (.plain (by simpa using h₃.1) (by simp [h₁.consumed]) rfl)

theorem enumDeclaration_parsed (hr : r.Parses) {attributes : Tree}
    (h : Reads c (us ++ [attributes]) c') (hc : ¬ c'.atEnd = true) :
    (enumDeclaration r attributes).Ensures c' (Parsed c us) := by
  refine (token_took h hc).bind fun keyword c₁ h₁ => ?_
  refine (identifier_parses h₁.reads).bind fun label c₂ h₂ => ?_
  refine (introduced_reads (eat_reads .colon h₂.reads) (typeDeclaration_parses hr)).bind
    fun backing c₃ h₃ => ?_
  refine (implementsClause_reads h₃).bind fun interfaces c₄ h₄ => ?_
  refine (classBody_reads hr h₄).bind fun body c₅ h₅ => ?_
  exact .pure (.plain (by simpa [filled_cons] using h₅.1) (by simp [h₁.consumed]) rfl)

/-- A declaration takes up the attributes before it; where none starts, nothing is read. -/
theorem declaration_reads (hr : r.Parses) {attributes : Tree}
    (h : Reads c (us ++ [attributes]) c') :
    (declaration r attributes).Ensures c' fun o d =>
      match o with
      | some t => Parsed c us t d
      | none => d = c' := by
  have keyword : ∀ {k : Keyword} {b : Bool}, (c'.seesKeyword k && b) = true →
      ¬ c'.atEnd = true :=
    fun hk => Cursor.not_atEnd_of_seesKeyword (Bool.and_eq_true_iff.mp hk).1
  refine .get ?_
  dsimp only
  split
  · exact .map (functionDeclaration_parsed hr h)
  split
  · exact .map (classDeclaration_parsed hr h)
  split
  · exact .pure rfl
  split
  · next hk => exact .map (interfaceDeclaration_parsed hr h (keyword hk))
  split
  · next hk => exact .map (traitDeclaration_parsed hr h (keyword hk))
  split
  · next hk => exact .map (enumDeclaration_parsed hr h (keyword hk))
  · exact .pure rfl

/-- Where no declaration starts, the cursor stays. -/
theorem declaration_stays {attributes : Tree} :
    (declaration r attributes).Ensures c fun o d => o = none → d = c := by
  have found : ∀ p : Production Tree,
      (some <$> p).Ensures c fun o d => o = none → d = c :=
    fun p => .map fun _ _ _ => nofun
  refine .get ?_
  dsimp only
  split
  · exact found _
  split
  · exact found _
  split
  · exact .pure fun _ => rfl
  split
  · exact found _
  split
  · exact found _
  split
  · exact found _
  · exact .pure fun _ => rfl

end PhpSyntax.Grammar
