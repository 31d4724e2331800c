import PhpSyntax.Grammar.Statement
import PhpSyntax.Proofs.Grammar.Expressions

namespace PhpSyntax.Grammar

open Production

variable {r : Nested} {c c' : Cursor} {us : List Tree}

theorem alternativeBody_reads (hr : r.Parses) (ends : List Keyword) (h : Reads c us c') :
    (alternativeBody r ends).Ensures c' fun t d => Reads c (us ++ [t]) d :=
  Nested.statements_reads hr _ h

theorem alternativeElseif_parsed (hr : r.Parses) (h : Reads c us c') (hc : ¬ c'.atEnd = true) :
    (alternativeElseif r).Ensures c' (Parsed c us) := by
  refine (token_took h hc).bind fun keyword c₁ h₁ => ?_
  refine (Nested.parenthesised_parses hr h₁.reads).bind fun condition c₂ h₂ => ?_
  refine (expect_took _ h₂.reads).bind fun colon c₃ h₃ => ?_
  refine (alternativeBody_reads hr _ h₃.reads).bind fun body c₄ h₄ => ?_
  exact .pure (.plain (by simpa using h₄) (by simp [h₁.consumed]) rfl)

theorem alternativeElse_parsed (hr : r.Parses) (h : Reads c us c') (hc : ¬ c'.atEnd = true) :
    (alternativeElse r).Ensures c' (Parsed c us) := by
  refine (token_took h hc).bind fun keyword c₁ h₁ => ?_
  refine (expect_took _ h₁.reads).bind fun colon c₂ h₂ => ?_
  refine (alternativeBody_reads hr _ h₂.reads).bind fun body c₃ h₃ => ?_
  exact .pure (.plain (by simpa using h₃) (by simp [h₁.consumed]) rfl)

theorem alternativeIf_parsed (hr : r.Parses) {keyword condition colon : Tree}
    (h : Reads c (us ++ [keyword] ++ [condition] ++ [colon]) c') :
    (alternativeIf r keyword condition colon).Ensures c' (Parsed c us) := by
  refine (alternativeBody_reads hr _ h).bind fun body c₁ h₁ => ?_
  refine (gatherTrees_list (fun us c' h hc => alternativeElseif_parsed hr h
    (Cursor.not_atEnd_of_seesKeyword hc)) h₁).bind fun elseifs c₂ h₂ => ?_
  refine (optional_reads h₂ fun hc => alternativeElse_parsed hr h₂
    (Cursor.not_atEnd_of_seesKeyword hc)).bind fun otherwise c₃ h₃ => ?_
  refine (expectKeyword_took _ h₃).bind fun close c₄ h₄ => ?_
  refine (statementEnd_took h₄.reads).bind fun stop c₅ h₅ => ?_
  exact .pure (.plain (by simpa [filled_cons] using h₅.reads)
    (by simp [filled_cons, h₅.consumed]) rfl)

theorem elseif_parsed (hr : r.Parses) (h : Reads c us c') (hc : ¬ c'.atEnd = true) :
    (elseif r).Ensures c' (Parsed c us) := by
  refine (token_took h hc).bind fun keyword c₁ h₁ => ?_
  refine (Nested.parenthesised_parses hr h₁.reads).bind fun condition c₂ h₂ => ?_
  refine (hr.statement h₂.reads).bind fun body c₃ h₃ => ?_
  exact .pure (.plain (by simpa using h₃.reads) (by simp [h₁.consumed]) rfl)

theorem elseClause_parsed (hr : r.Parses) (h : Reads c us c') (hc : ¬ c'.atEnd = true) :
    (elseClause r).Ensures c' (Parsed c us) := by
  refine (token_took h hc).bind fun keyword c₁ h₁ => ?_
  refine (hr.statement h₁.reads).bind fun body c₂ h₂ => ?_
  exact .pure (.plain (by simpa using h₂.reads) (by simp [h₁.consumed]) rfl)

theorem ifStatement_parsed (hr : r.Parses) (h : Reads c us c') (hc : ¬ c'.atEnd = true) :
    (ifStatement r).Ensures c' (Parsed c us) := by
  refine (token_took h hc).bind fun keyword c₁ h₁ => ?_
  refine (Nested.parenthesised_parses hr h₁.reads).bind fun condition c₂ h₂ => ?_
  refine (eat_reads .colon h₂.reads).bind fun o c₃ h₃ => ?_
  cases o with
  | some colon => exact alternativeIf_parsed hr h₃
  | none =>
    refine (hr.statement h₃).bind fun body c₄ h₄ => ?_
    refine (gatherTrees_list (fun us c' h hc => elseif_parsed hr h
      (Cursor.not_atEnd_of_seesKeyword hc)) h₄.reads).bind fun elseifs c₅ h₅ => ?_
    refine (optional_reads h₅ fun hc => elseClause_parsed hr h₅
      (Cursor.not_atEnd_of_seesKeyword hc)).bind fun otherwise c₆ h₆ => ?_
    exact .pure (.plain (by simpa [filled_cons] using h₆) (by simp [h₁.consumed]) rfl)

theorem whileStatement_parsed (hr : r.Parses) (h : Reads c us c') (hc : ¬ c'.atEnd = true) :
    (whileStatement r).Ensures c' (Parsed c us) := by
  refine (token_took h hc).bind fun keyword c₁ h₁ => ?_
  refine (Nested.parenthesised_parses hr h₁.reads).bind fun condition c₂ h₂ => ?_
  refine (eat_reads .colon h₂.reads).bind fun o c₃ h₃ => ?_
  cases o with
  | some colon =>
    refine (alternativeBody_reads hr _ h₃).bind fun body c₄ h₄ => ?_
    refine (expectKeyword_took _ h₄).bind fun close c₅ h₅ => ?_
    refine (statementEnd_took h₅.reads).bind fun stop c₆ h₆ => ?_
    exact .pure (.plain (by simpa using h₆.reads) (by simp [h₁.consumed]) rfl)
  | none =>
    refine (hr.statement h₃).bind fun body c₄ h₄ => ?_
    exact .pure (.plain (by simpa using h₄.reads) (by simp [h₁.consumed]) rfl)

theorem doWhileStatement_parsed (hr : r.Parses) (h : Reads c us c') (hc : ¬ c'.atEnd = true) :
    (doWhileStatement r).Ensures c' (Parsed c us) := by
  refine (token_took h hc).bind fun keyword c₁ h₁ => ?_
  refine (hr.statement h₁.reads).bind fun body c₂ h₂ => ?_
  refine (expectKeyword_took _ h₂.reads).bind fun whileKeyword c₃ h₃ => ?_
  refine (Nested.parenthesised_parses hr h₃.reads).bind fun condition c₄ h₄ => ?_
  refine (statementEnd_took h₄.reads).bind fun stop c₅ h₅ => ?_
  exact .pure (.plain (by simpa using h₅.reads) (by simp [h₁.consumed]) rfl)

theorem forStatement_parsed (hr : r.Parses) (h : Reads c us c') (hc : ¬ c'.atEnd = true) :
    (forStatement r).Ensures c' (Parsed c us) := by
  refine (token_took h hc).bind fun keyword c₁ h₁ => ?_
  refine (expect_took _ h₁.reads).bind fun left c₂ h₂ => ?_
  refine (commaList_reads _ hr.expression h₂.reads).bind fun start c₃ h₃ => ?_
  refine (expect_took _ h₃).bind fun firstSemicolon c₄ h₄ => ?_
  refine (commaList_reads _ hr.expression h₄.reads).bind fun condition c₅ h₅ => ?_
  refine (expect_took _ h₅).bind fun secondSemicolon c₆ h₆ => ?_
  refine (commaList_reads _ hr.expression h₆.reads).bind fun step c₇ h₇ => ?_
  refine (expect_took _ h₇).bind fun right c₈ h₈ => ?_
  refine (eat_reads .colon h₈.reads).bind fun o c₉ h₉ => ?_
  cases o with
  | some colon =>
    refine (alternativeBody_reads hr _ h₉).bind fun body d₁ g₁ => ?_
    refine (expectKeyword_took _ g₁).bind fun close d₂ g₂ => ?_
    refine (statementEnd_took g₂.reads).bind fun stop d₃ g₃ => ?_
    exact .pure (.plain (by simpa using g₃.reads) (by simp [h₁.consumed]) rfl)
  | none =>
    refine (hr.statement h₉).bind fun body d₁ g₁ => ?_
    exact .pure (.plain (by simpa using g₁.reads) (by simp [h₁.consumed]) rfl)

theorem foreachTarget_parses (hr : r.Parses) : (foreachTarget r).Parses := by
  intro c us c' h
  refine .get ?_
  split
  · exact referenceValue_parses hr h
  · exact hr.access h

theorem foreachTargets_reads (hr : r.Parses) (h : Reads c us c') :
    (foreachTargets r).Ensures c' fun p d =>
      Reads c (us ++ filled [p.1, p.2.1, some p.2.2]) d := by
  refine (foreachTarget_parses hr h).bind fun first c₁ h₁ => ?_
  refine (eat_reads .doubleArrow h₁.reads).bind fun o c₂ h₂ => ?_
  cases o with
  | some arrow =>
    refine (foreachTarget_parses hr h₂).bind fun value c₃ h₃ => ?_
    exact .pure (by simpa using h₃.reads)
  | none => exact .pure (by simpa using h₂)

theorem foreachStatement_parsed (hr : r.Parses) (h : Reads c us c') (hc : ¬ c'.atEnd = true) :
    (foreachStatement r).Ensures c' (Parsed c us) := by
  refine (token_took h hc).bind fun keyword c₁ h₁ => ?_
  refine (expect_took _ h₁.reads).bind fun left c₂ h₂ => ?_
  refine (hr.expression h₂.reads).bind fun subject c₃ h₃ => ?_
  refine (expectKeyword_took _ h₃.reads).bind fun asKeyword c₄ h₄ => ?_
  refine (foreachTargets_reads hr h₄.reads).bind fun targets c₅ h₅ => ?_
  refine (expect_took _ h₅).bind fun right c₆ h₆ => ?_
  refine (eat_reads .colon h₆.reads).bind fun o c₇ h₇ => ?_
  cases o with
  | some colon =>
    refine (alternativeBody_reads hr _ h₇).bind fun body c₈ h₈ => ?_
    refine (expectKeyword_took _ h₈).bind fun close c₉ h₉ => ?_
    refine (statementEnd_took h₉.reads).bind fun stop d₁ g₁ => ?_
    exact .pure (.plain (by simpa [filled_cons] using g₁.reads) (by simp [h₁.consumed]) rfl)
  | none =>
    refine (hr.statement h₇).bind fun body c₈ h₈ => ?_
    exact .pure (.plain (by simpa [filled_cons] using h₈.reads) (by simp [h₁.consumed]) rfl)

theorem caseSeparator_took (h : Reads c us c') : caseSeparator.Ensures c' (Took c us) := by
  refine leafIf_took h fun hc => ⟨?_, rfl⟩
  exact (Bool.or_eq_true_iff.mp hc).elim Cursor.not_atEnd_of_sees Cursor.not_atEnd_of_sees

theorem switchClause_parses (hr : r.Parses) (stop : Cursor → Bool) :
    (switchClause r stop).Parses := by
  intro c us c' h
  refine .get ?_
  split
  · next hk =>
    refine (token_took h (Cursor.not_atEnd_of_seesKeyword hk)).bind fun keyword c₁ h₁ => ?_
    refine (hr.expression h₁.reads).bind fun value c₂ h₂ => ?_
    refine (caseSeparator_took h₂.reads).bind fun separator c₃ h₃ => ?_
    refine (Nested.statements_reads hr _ h₃.reads).bind fun body c₄ h₄ => ?_
    exact .pure (.plain (by simpa using h₄) (by simp [h₁.consumed]) rfl)
  split
  · next hk =>
    refine (token_took h (Cursor.not_atEnd_of_seesKeyword hk)).bind fun keyword c₁ h₁ => ?_
    refine (caseSeparator_took h₁.reads).bind fun separator c₂ h₂ => ?_
    refine (Nested.statements_reads hr _ h₂.reads).bind fun body c₃ h₃ => ?_
    exact .pure (.plain (by simpa using h₃) (by simp [h₁.consumed]) rfl)
  · exact .expected

theorem switchClauses_reads (hr : r.Parses) (stop : Cursor → Bool) (h : Reads c us c') :
    (switchClauses r stop).Ensures c' fun t d => Reads c (us ++ [t]) d := by
  exact (gatherTrees_list (fun us c' h _ => switchClause_parses hr stop h) h).bind
    fun slots d hd => .pure hd

theorem switchStatement_parsed (hr : r.Parses) (h : Reads c us c') (hc : ¬ c'.atEnd = true) :
    (switchStatement r).Ensures c' (Parsed c us) := by
  refine (token_took h hc).bind fun keyword c₁ h₁ => ?_
  refine (Nested.parenthesised_parses hr h₁.reads).bind fun subject c₂ h₂ => ?_
  refine (eat_reads .colon h₂.reads).bind fun o c₃ h₃ => ?_
  cases o with
  | some colon =>
    refine (switchClauses_reads hr _ h₃).bind fun clauses c₄ h₄ => ?_
    refine (expectKeyword_took _ h₄).bind fun close c₅ h₅ => ?_
    refine (statementEnd_took h₅.reads).bind fun stop c₆ h₆ => ?_
    exact .pure (.plain (by simpa using h₆.reads) (by simp [h₁.consumed]) rfl)
  | none =>
    refine (expect_took _ h₃).bind fun left c₄ h₄ => ?_
    refine (switchClauses_reads hr _ h₄.reads).bind fun clauses c₅ h₅ => ?_
    refine (expect_took _ h₅).bind fun right c₆ h₆ => ?_
    exact .pure (.plain (by simpa using h₆.reads) (by simp [h₁.consumed]) rfl)

theorem catchBlock_parsed (hr : r.Parses) (h : Reads c us c') (hc : ¬ c'.atEnd = true) :
    (catchBlock r).Ensures c' (Parsed c us) := by
  refine (token_took h hc).bind fun keyword c₁ h₁ => ?_
  refine (expect_took _ h₁.reads).bind fun left c₂ h₂ => ?_
  refine (delimited_parses _ name_parses (by simp) h₂.reads).bind fun types c₃ h₃ => ?_
  refine (optional_reads h₃.reads fun _ => variableName_parses h₃.reads).bind
    fun variableName c₄ h₄ => ?_
  refine (expect_took _ h₄).bind fun right c₅ h₅ => ?_
  refine (Nested.block_parses hr h₅.reads).bind fun body c₆ h₆ => ?_
  exact .pure (.plain (by simpa [filled_cons] using h₆.reads) (by simp [h₁.consumed]) rfl)

theorem finallyClause_parsed (hr : r.Parses) (h : Reads c us c') (hc : ¬ c'.atEnd = true) :
    (finallyClause r).Ensures c' (Parsed c us) := by
  refine (token_took h hc).bind fun keyword c₁ h₁ => ?_
  refine (Nested.block_parses hr h₁.reads).bind fun body c₂ h₂ => ?_
  exact .pure (.plain (by simpa using h₂.reads) (by simp [h₁.consumed]) rfl)

theorem tryStatement_parsed (hr : r.Parses) (h : Reads c us c') (hc : ¬ c'.atEnd = true) :
    (tryStatement r).Ensures c' (Parsed c us) := by
  refine (token_took h hc).bind fun keyword c₁ h₁ => ?_
  refine (Nested.block_parses hr h₁.reads).bind fun body c₂ h₂ => ?_
  refine (gatherTrees_list (fun us c' h hc => catchBlock_parsed hr h
    (Cursor.not_atEnd_of_seesKeyword hc)) h₂.reads).bind fun catches c₃ h₃ => ?_
  refine (optional_reads h₃ fun hc => finallyClause_parsed hr h₃
    (Cursor.not_atEnd_of_seesKeyword hc)).bind fun last c₄ h₄ => ?_
  split
  · exact .expected
  · exact .pure (.plain (by simpa [filled_cons] using h₄) (by simp [h₁.consumed]) rfl)

theorem jumpStatement_parsed (hr : r.Parses) {kind : Kind}
    (hk : ∀ a b d : Option Tree, isPlainNode kind [a, b, d] = true) (h : Reads c us c')
    (hc : ¬ c'.atEnd = true) : (jumpStatement r kind).Ensures c' (Parsed c us) := by
  refine (token_took h hc).bind fun keyword c₁ h₁ => ?_
  refine (optional_reads h₁.reads fun _ => hr.expression h₁.reads).bind fun value c₂ h₂ => ?_
  refine (statementEnd_took h₂).bind fun stop c₃ h₃ => ?_
  exact .pure (.plain (by simpa [filled_cons] using h₃.reads) (by simp [h₁.consumed]) (hk _ _ _))

theorem listStatement_parsed {kind : Kind} {item : Production Tree}
    (hk : ∀ a b d : Option Tree, isPlainNode kind [a, b, d] = true) (hi : item.Parses)
    (h : Reads c us c') (hc : ¬ c'.atEnd = true) :
    (listStatement kind item).Ensures c' (Parsed c us) := by
  refine (token_took h hc).bind fun keyword c₁ h₁ => ?_
  refine (commaList_reads _ hi h₁.reads).bind fun list c₂ h₂ => ?_
  refine (statementEnd_took h₂).bind fun stop c₃ h₃ => ?_
  exact .pure (.plain (by simpa using h₃.reads) (by simp [h₁.consumed]) (hk _ _ _))

theorem unsetStatement_parsed (hr : r.Parses) (h : Reads c us c') (hc : ¬ c'.atEnd = true) :
    (unsetStatement r).Ensures c' (Parsed c us) := by
  refine (token_took h hc).bind fun keyword c₁ h₁ => ?_
  refine (expect_took _ h₁.reads).bind fun left c₂ h₂ => ?_
  refine (commaList_reads _ hr.expression h₂.reads).bind fun list c₃ h₃ => ?_
  refine (expect_took _ h₃).bind fun right c₄ h₄ => ?_
  refine (statementEnd_took h₄.reads).bind fun stop c₅ h₅ => ?_
  exact .pure (.plain (by simpa using h₅.reads) (by simp [h₁.consumed]) rfl)

theorem throwStatement_parsed (hr : r.Parses) (h : Reads c us c') (hc : ¬ c'.atEnd = true) :
    (throwStatement r).Ensures c' (Parsed c us) := by
  refine (token_took h hc).bind fun keyword c₁ h₁ => ?_
  refine (hr.expression h₁.reads).bind fun value c₂ h₂ => ?_
  refine (statementEnd_took h₂.reads).bind fun stop c₃ h₃ => ?_
  exact .pure (.plain (by simpa using h₃.reads) (by simp [h₁.consumed]) rfl)

theorem gotoStatement_parsed (h : Reads c us c') (hc : ¬ c'.atEnd = true) :
    gotoStatement.Ensures c' (Parsed c us) := by
  refine (token_took h hc).bind fun keyword c₁ h₁ => ?_
  refine (identifier_parses h₁.reads).bind fun label c₂ h₂ => ?_
  refine (statementEnd_took h₂.reads).bind fun stop c₃ h₃ => ?_
  exact .pure (.plain (by simpa using h₃.reads) (by simp [h₁.consumed]) rfl)

theorem labelStatement_parsed (h : Reads c us c') (hid : c'.seesKind .identifier = true)
    (hp : (c'.peek 1).isPunctuator .colon = true) :
    labelStatement.Ensures c' (Parsed c us) := by
  have hc := Cursor.not_atEnd_of_seesKind hid nofun
  have h₁ := h.leaf (k := .nameIdentifier) hc hid
  rw [Cursor.peek_one hc] at hp
  refine Ensures.leaf ?_
  refine (token_took h₁ (Cursor.not_atEnd_of_sees hp)).bind fun colon c₂ h₂ => ?_
  exact .pure (.plain (by simpa using h₂.reads) (by simp) rfl)

theorem declareStatement_parsed (hr : r.Parses) (h : Reads c us c') (hc : ¬ c'.atEnd = true) :
    (declareStatement r).Ensures c' (Parsed c us) := by
  refine (token_took h hc).bind fun keyword c₁ h₁ => ?_
  refine (expect_took _ h₁.reads).bind fun left c₂ h₂ => ?_
  refine (commaList_reads _ (constantAssignment_parses hr) h₂.reads).bind
    fun directives c₃ h₃ => ?_
  refine (expect_took _ h₃).bind fun right c₄ h₄ => .get ?_
  split
  · refine (statementEnd_took h₄.reads).bind fun body c₅ h₅ => ?_
    exact .pure (.plain (by simpa using h₅.reads) (by simp [h₁.consumed]) rfl)
  · refine (hr.statement h₄.reads).bind fun body c₅ h₅ => ?_
    exact .pure (.plain (by simpa using h₅.reads) (by simp [h₁.consumed]) rfl)

theorem keywordStatements_parsed (hr : r.Parses) {entry : Keyword × Production Tree}
    (hm : entry ∈ keywordStatements r) (h : Reads c us c') (hc : ¬ c'.atEnd = true) :
    entry.2.Ensures c' (Parsed c us) := by
  simp only [keywordStatements, List.mem_cons, List.not_mem_nil, or_false] at hm
  obtain rfl | rfl | rfl | rfl | rfl | rfl | rfl | rfl | rfl | rfl | rfl | rfl | rfl | rfl | rfl |
    rfl | rfl | rfl | rfl := hm
  · exact ifStatement_parsed hr h hc
  · exact whileStatement_parsed hr h hc
  · exact doWhileStatement_parsed hr h hc
  · exact forStatement_parsed hr h hc
  · exact foreachStatement_parsed hr h hc
  · exact switchStatement_parsed hr h hc
  · exact jumpStatement_parsed hr (fun _ _ _ => rfl) h hc
  · exact jumpStatement_parsed hr (fun _ _ _ => rfl) h hc
  · exact jumpStatement_parsed hr (fun _ _ _ => rfl) h hc
  · exact listStatement_parsed (fun _ _ _ => rfl) hr.expression h hc
  · exact listStatement_parsed (fun _ _ _ => rfl) hr.access h hc
  · exact unsetStatement_parsed hr h hc
  · exact throwStatement_parsed hr h hc
  · exact tryStatement_parsed hr h hc
  · exact gotoStatement_parsed h hc
  · exact declareStatement_parsed hr h hc
  · exact namespaceStatement_parsed hr h hc
  · exact useStatement_parsed h hc
  · exact constantDeclaration_parsed hr h hc

/-- Where no such statement starts, the cursor stays. -/
theorem keywordStatement_reads (hr : r.Parses) (h : Reads c us c')
    (hid : c'.seesKind .identifier = true) :
    (keywordStatement r).Ensures c' fun o d =>
      match o with
      | some t => Parsed c us t d
      | none => d = c' := by
  have hc := Cursor.not_atEnd_of_seesKind hid nofun
  have hl : Reads c (us ++ [.node .plainList []]) c' := Reads.list (by simpa using h)
  refine .get ?_
  split
  · exact .pure rfl
  refine (declaration_reads hr hl).bind fun o d hd => ?_
  cases o with
  | some tree => exact .pure hd
  | none =>
    obtain rfl : d = c' := hd
    dsimp only
    split
    · next hf =>
      exact .map (keywordStatements_parsed hr (List.mem_of_find?_eq_some hf) h hc)
    split
    · exact .map (listStatement_parsed (fun _ _ _ => rfl) (initialisedVariable_parses hr) h hc)
    split
    · next hp => exact .map (labelStatement_parsed h hid (Bool.and_eq_true_iff.mp hp).1)
    · exact .pure rfl

theorem callStep_parsed (hr : r.Parses) {tree : Tree} (h : Parsed c us tree c') :
    (callStep r tree).Ensures c' fun o d => Parsed c us (o.getD tree) d := by
  refine .get ?_
  split
  · refine (arguments_parses hr h.reads).bind fun arguments c₁ h₁ => ?_
    exact .pure (.plain (by simpa using h₁.reads) (by simp [h₁.consumed]) rfl)
  · exact .pure h

theorem attributedStatement_parses (hr : r.Parses) : (attributedStatement r).Parses := by
  intro c us c' h
  refine (attributes_reads hr h).bind fun attributes c₁ h₁ => ?_
  refine (declaration_reads hr h₁).bind fun o d hd => ?_
  cases o with
  | some tree => exact .pure hd
  | none =>
    obtain rfl : d = c₁ := hd
    refine (closure_parsed hr h₁).bind fun body c₂ h₂ => ?_
    refine (chain_parsed (fun _ _ => callStep_parsed hr) h₂).bind fun called c₃ h₃ => ?_
    refine (statementEnd_took h₃.reads).bind fun stop c₄ h₄ => ?_
    exact .pure (.plain (by simpa using h₄.reads) (by simp [h₃.consumed]) rfl)

theorem expressionStatement_parses (hr : r.Parses) : (expressionStatement r).Parses := by
  intro c us c' h
  refine (expression_parses hr h).bind fun value c₁ h₁ => ?_
  refine (statementEnd_took h₁.reads).bind fun stop c₂ h₂ => ?_
  exact .pure (.plain (by simpa using h₂.reads) (by simp [h₁.consumed]) rfl)

theorem plainStatement_parses (hr : r.Parses) : (plainStatement r).Parses := by
  intro c us c' h
  refine .get ?_
  split
  · exact Nested.block_parses hr h
  split
  · next hc => exact leaf_parsed h (Cursor.not_atEnd_of_sees hc) hc nofun
  split
  · exact attributedStatement_parses hr h
  · exact expressionStatement_parses hr h

theorem statement_parses (hr : r.Parses) : (statement r).Parses := by
  intro c us c' h
  have html : c'.current.kind ≠ .eof → Kind.inlineHtml.holds c'.current = true →
      (leaf .inlineHtml).Ensures c' (Parsed c us) :=
    fun hc hk => leaf_parsed h (mt Cursor.atEnd_iff.mp hc) hk nofun
  refine .get ?_
  split
  · next hk => exact html (by simp [hk]) (by simp [Kind.holds, hk])
  · next hk => exact html (by simp [hk]) (by simp [Kind.holds, hk])
  · next hk => exact html (by simp [hk]) (by simp [Kind.holds, hk])
  · next hk =>
    exact listStatement_parsed (fun _ _ _ => rfl) hr.expression h (by simp [Cursor.atEnd_iff, hk])
  · next hk =>
    refine (keywordStatement_reads hr h (by simp [Cursor.seesKind, hk])).bind fun o d hd => ?_
    cases o with
    | some tree => exact .pure hd
    | none =>
      obtain rfl : d = c' := hd
      exact plainStatement_parses hr h
  · exact plainStatement_parses hr h

end PhpSyntax.Grammar
