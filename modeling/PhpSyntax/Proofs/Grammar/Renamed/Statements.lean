import PhpSyntax.Proofs.Grammar.Classes
import PhpSyntax.Proofs.Grammar.Renamed.Expressions

namespace PhpSyntax.Grammar

open Production

variable {f : Renaming} {r : Nested} {c : Cursor}

theorem alternativeBody_mirrored (hr : r.Mirrored f) (ends : List Keyword) :
    (alternativeBody r ends).Mirrored f :=
  Nested.statements_mirrored hr (by simp)

theorem alternativeElseif_mirrors (hr : r.Mirrored f) (hc : c.seesInfix = false) :
    Mirrors f (Tree.rename f) c (alternativeElseif r) (alternativeElseif r) := by
  refine (token_mirrors hc).bind fun keyword c₁ => ?_
  refine (Nested.parenthesised_mirrored hr c₁).bind fun condition c₂ => ?_
  refine (expect_mirrors (by decide)).bind fun colon c₃ => ?_
  exact (alternativeBody_mirrored hr _ c₃).bind fun body c₄ => .pure (by simp)

theorem alternativeElse_mirrors (hr : r.Mirrored f) (hc : c.seesInfix = false) :
    Mirrors f (Tree.rename f) c (alternativeElse r) (alternativeElse r) := by
  refine (token_mirrors hc).bind fun keyword c₁ => ?_
  refine (expect_mirrors (by decide)).bind fun colon c₂ => ?_
  exact (alternativeBody_mirrored hr _ c₂).bind fun body c₃ => .pure (by simp)

theorem alternativeIf_mirrors (hr : r.Mirrored f) (keyword condition colon : Tree) :
    Mirrors f (Tree.rename f) c (alternativeIf r keyword condition colon)
      (alternativeIf r (keyword.rename f) (condition.rename f) (colon.rename f)) := by
  refine (alternativeBody_mirrored hr _ c).bind fun body c₁ => ?_
  refine (gatherTrees_mirrors (by simp) fun _ hc =>
    alternativeElseif_mirrors hr (Cursor.not_infix_of_seesKeyword hc)).bind fun elseifs c₂ => ?_
  refine (optional_mirrors (by simp) fun hc =>
    alternativeElse_mirrors hr (Cursor.not_infix_of_seesKeyword hc)).bind fun otherwise c₃ => ?_
  refine (expectKeyword_mirrors _).bind fun close c₄ => ?_
  exact (statementEnd_mirrored c₄).bind fun stop c₅ => .pure (by simp)

theorem elseif_mirrors (hr : r.Mirrored f) (hc : c.seesInfix = false) :
    Mirrors f (Tree.rename f) c (elseif r) (elseif r) := by
  refine (token_mirrors hc).bind fun keyword c₁ => ?_
  refine (Nested.parenthesised_mirrored hr c₁).bind fun condition c₂ => ?_
  exact (hr.statement c₂).bind fun body c₃ => .pure (by simp)

theorem elseClause_mirrors (hr : r.Mirrored f) (hc : c.seesInfix = false) :
    Mirrors f (Tree.rename f) c (elseClause r) (elseClause r) := by
  refine (token_mirrors hc).bind fun keyword c₁ => ?_
  exact (hr.statement c₁).bind fun body c₂ => .pure (by simp)

theorem ifStatement_mirrors (hr : r.Mirrored f) (hc : c.seesInfix = false) :
    Mirrors f (Tree.rename f) c (ifStatement r) (ifStatement r) := by
  refine (token_mirrors hc).bind fun keyword c₁ => ?_
  refine (Nested.parenthesised_mirrored hr c₁).bind fun condition c₂ => ?_
  refine (eat_mirrors .colon rfl).bind fun o c₃ => ?_
  cases o with
  | some colon => exact alternativeIf_mirrors hr keyword condition colon
  | none =>
    refine (hr.statement c₃).bind fun body c₄ => ?_
    refine (gatherTrees_mirrors (by simp) fun _ hc =>
      elseif_mirrors hr (Cursor.not_infix_of_seesKeyword hc)).bind fun elseifs c₅ => ?_
    refine (optional_mirrors (by simp) fun hc =>
      elseClause_mirrors hr (Cursor.not_infix_of_seesKeyword hc)).bind fun otherwise c₆ => ?_
    exact .pure (by simp)

theorem whileStatement_mirrors (hr : r.Mirrored f) (hc : c.seesInfix = false) :
    Mirrors f (Tree.rename f) c (whileStatement r) (whileStatement r) := by
  refine (token_mirrors hc).bind fun keyword c₁ => ?_
  refine (Nested.parenthesised_mirrored hr c₁).bind fun condition c₂ => ?_
  refine (eat_mirrors .colon rfl).bind fun o c₃ => ?_
  cases o with
  | some colon =>
    refine (alternativeBody_mirrored hr _ c₃).bind fun body c₄ => ?_
    refine (expectKeyword_mirrors _).bind fun close c₅ => ?_
    exact (statementEnd_mirrored c₅).bind fun stop c₆ => .pure (by simp)
  | none => exact (hr.statement c₃).bind fun body c₄ => .pure (by simp)

theorem doWhileStatement_mirrors (hr : r.Mirrored f) (hc : c.seesInfix = false) :
    Mirrors f (Tree.rename f) c (doWhileStatement r) (doWhileStatement r) := by
  refine (token_mirrors hc).bind fun keyword c₁ => ?_
  refine (hr.statement c₁).bind fun body c₂ => ?_
  refine (expectKeyword_mirrors _).bind fun whileKeyword c₃ => ?_
  refine (Nested.parenthesised_mirrored hr c₃).bind fun condition c₄ => ?_
  exact (statementEnd_mirrored c₄).bind fun stop c₅ => .pure (by simp)

theorem forStatement_mirrors (hr : r.Mirrored f) (hc : c.seesInfix = false) :
    Mirrors f (Tree.rename f) c (forStatement r) (forStatement r) := by
  refine (token_mirrors hc).bind fun keyword c₁ => ?_
  refine (expect_mirrors (by decide)).bind fun left c₂ => ?_
  refine (commaList_mirrored _ hr.expression c₂).bind fun start c₃ => ?_
  refine (expect_mirrors (by decide)).bind fun firstSemicolon c₄ => ?_
  refine (commaList_mirrored _ hr.expression c₄).bind fun condition c₅ => ?_
  refine (expect_mirrors (by decide)).bind fun secondSemicolon c₆ => ?_
  refine (commaList_mirrored _ hr.expression c₆).bind fun step c₇ => ?_
  refine (expect_mirrors (by decide)).bind fun right c₈ => ?_
  refine (eat_mirrors .colon rfl).bind fun o c₉ => ?_
  cases o with
  | some colon =>
    refine (alternativeBody_mirrored hr _ c₉).bind fun body d₁ => ?_
    refine (expectKeyword_mirrors _).bind fun close d₂ => ?_
    exact (statementEnd_mirrored d₂).bind fun stop d₃ => .pure (by simp)
  | none => exact (hr.statement c₉).bind fun body d₁ => .pure (by simp)

theorem foreachTarget_mirrored (hr : r.Mirrored f) : (foreachTarget r).Mirrored f :=
  fun c => .get (.ite (by simp) (fun _ => referenceValue_mirrored hr c) fun _ => hr.access c)

def renameTargets (f : Renaming) :
    Option Tree × Option Tree × Tree → Option Tree × Option Tree × Tree :=
  Prod.map (Option.map (Tree.rename f)) (Prod.map (Option.map (Tree.rename f)) (Tree.rename f))

theorem foreachTargets_mirrors (hr : r.Mirrored f) :
    Mirrors f (renameTargets f) c (foreachTargets r) (foreachTargets r) := by
  refine (foreachTarget_mirrored hr c).bind fun first c₁ => ?_
  refine (eat_mirrors .doubleArrow rfl).bind fun o c₂ => ?_
  cases o with
  | some arrow => exact (foreachTarget_mirrored hr c₂).bind fun value c₃ => .pure rfl
  | none => exact .pure rfl

theorem foreachStatement_mirrors (hr : r.Mirrored f) (hc : c.seesInfix = false) :
    Mirrors f (Tree.rename f) c (foreachStatement r) (foreachStatement r) := by
  refine (token_mirrors hc).bind fun keyword c₁ => ?_
  refine (expect_mirrors (by decide)).bind fun left c₂ => ?_
  refine (hr.expression c₂).bind fun subject c₃ => ?_
  refine (expectKeyword_mirrors _).bind fun asKeyword c₄ => ?_
  refine (foreachTargets_mirrors hr).bind fun targets c₅ => ?_
  obtain ⟨key, arrow, value⟩ := targets
  refine (expect_mirrors (by decide)).bind fun right c₆ => ?_
  refine (eat_mirrors .colon rfl).bind fun o c₇ => ?_
  cases o with
  | some colon =>
    refine (alternativeBody_mirrored hr _ c₇).bind fun body c₈ => ?_
    refine (expectKeyword_mirrors _).bind fun close c₉ => ?_
    exact (statementEnd_mirrored c₉).bind fun stop d₁ => .pure (by simp)
  | none => exact (hr.statement c₇).bind fun body c₈ => .pure (by simp)

theorem caseSeparator_mirrored : caseSeparator.Mirrored f := by
  refine leafIf_mirrored (by simp) fun c hc => ?_
  obtain hs | hs := Bool.or_eq_true_iff.mp hc
  · exact Cursor.not_infix_of_sees hs rfl
  · exact Cursor.not_infix_of_sees hs rfl

theorem switchClause_mirrored (hr : r.Mirrored f) {stop : Cursor → Bool}
    (hs : ∀ c, stop (c.rename f) = stop c) : (switchClause r stop).Mirrored f := by
  have body : (r.statements fun c => stop c || c.seesAnyKeyword [.kwCase, .kwDefault]).Mirrored f :=
    Nested.statements_mirrored hr (by simp [hs])
  refine fun c => .get (.ite (by simp) (fun hc => ?_) fun _ =>
    .ite (by simp) (fun hc => ?_) fun _ => .expected)
  · refine (token_mirrors (Cursor.not_infix_of_seesKeyword hc)).bind fun keyword c₁ => ?_
    refine (hr.expression c₁).bind fun value c₂ => ?_
    refine (caseSeparator_mirrored c₂).bind fun separator c₃ => ?_
    exact (body c₃).bind fun statements c₄ => .pure (by simp)
  · refine (token_mirrors (Cursor.not_infix_of_seesKeyword hc)).bind fun keyword c₁ => ?_
    refine (caseSeparator_mirrored c₁).bind fun separator c₂ => ?_
    exact (body c₂).bind fun statements c₃ => .pure (by simp)

theorem switchClauses_mirrored (hr : r.Mirrored f) {stop : Cursor → Bool}
    (hs : ∀ c, stop (c.rename f) = stop c) : (switchClauses r stop).Mirrored f :=
  fun _ => (gatherTrees_mirrors (by simp [hs]) fun d _ =>
    switchClause_mirrored hr hs d).bind fun _ _ => .pure rfl

theorem switchStatement_mirrors (hr : r.Mirrored f) (hc : c.seesInfix = false) :
    Mirrors f (Tree.rename f) c (switchStatement r) (switchStatement r) := by
  refine (token_mirrors hc).bind fun keyword c₁ => ?_
  refine (Nested.parenthesised_mirrored hr c₁).bind fun subject c₂ => ?_
  refine (eat_mirrors .colon rfl).bind fun o c₃ => ?_
  cases o with
  | some colon =>
    refine (switchClauses_mirrored hr (by simp) c₃).bind fun clauses c₄ => ?_
    refine (expectKeyword_mirrors _).bind fun close c₅ => ?_
    exact (statementEnd_mirrored c₅).bind fun stop c₆ => .pure (by simp)
  | none =>
    refine (expect_mirrors (by decide)).bind fun left c₄ => ?_
    refine (switchClauses_mirrored hr (by simp) c₄).bind fun clauses c₅ => ?_
    exact (expect_mirrors (by decide)).bind fun right c₆ => .pure (by simp)

theorem catchBlock_mirrors (hr : r.Mirrored f) (hc : c.seesInfix = false) :
    Mirrors f (Tree.rename f) c (catchBlock r) (catchBlock r) := by
  refine (token_mirrors hc).bind fun keyword c₁ => ?_
  refine (expect_mirrors (by decide)).bind fun left c₂ => ?_
  have names : (delimited .pipe name).Mirrored f := delimited_mirrored .pipe name_mirrored rfl
  refine (names c₂).bind fun types c₃ => ?_
  refine (optional_mirrors (by simp) fun _ => variableName_mirrored c₃).bind
    fun variableName c₄ => ?_
  refine (expect_mirrors (by decide)).bind fun right c₅ => ?_
  exact (Nested.block_mirrored hr c₅).bind fun body c₆ => .pure (by simp)

theorem finallyClause_mirrors (hr : r.Mirrored f) (hc : c.seesInfix = false) :
    Mirrors f (Tree.rename f) c (finallyClause r) (finallyClause r) := by
  refine (token_mirrors hc).bind fun keyword c₁ => ?_
  exact (Nested.block_mirrored hr c₁).bind fun body c₂ => .pure (by simp)

theorem tryStatement_mirrors (hr : r.Mirrored f) (hc : c.seesInfix = false) :
    Mirrors f (Tree.rename f) c (tryStatement r) (tryStatement r) := by
  refine (token_mirrors hc).bind fun keyword c₁ => ?_
  refine (Nested.block_mirrored hr c₁).bind fun body c₂ => ?_
  refine (gatherTrees_mirrors (by simp) fun _ hc =>
    catchBlock_mirrors hr (Cursor.not_infix_of_seesKeyword hc)).bind fun catches c₃ => ?_
  refine (optional_mirrors (by simp) fun hc =>
    finallyClause_mirrors hr (Cursor.not_infix_of_seesKeyword hc)).bind fun last c₄ => ?_
  exact .ite (by simp) (fun _ => .expected) fun _ => .pure (by simp)

theorem jumpStatement_mirrors (hr : r.Mirrored f) (kind : Kind) (hc : c.seesInfix = false) :
    Mirrors f (Tree.rename f) c (jumpStatement r kind) (jumpStatement r kind) := by
  refine (token_mirrors hc).bind fun keyword c₁ => ?_
  refine (optional_mirrors (by simp) fun _ => hr.expression c₁).bind fun value c₂ => ?_
  exact (statementEnd_mirrored c₂).bind fun stop c₃ => .pure (by simp)

theorem listStatement_mirrors (kind : Kind) {item : Production Tree} (hi : item.Mirrored f)
    (hc : c.seesInfix = false) :
    Mirrors f (Tree.rename f) c (listStatement kind item) (listStatement kind item) := by
  refine (token_mirrors hc).bind fun keyword c₁ => ?_
  refine (commaList_mirrored _ hi c₁).bind fun list c₂ => ?_
  exact (statementEnd_mirrored c₂).bind fun stop c₃ => .pure (by simp)

theorem unsetStatement_mirrors (hr : r.Mirrored f) (hc : c.seesInfix = false) :
    Mirrors f (Tree.rename f) c (unsetStatement r) (unsetStatement r) := by
  refine (token_mirrors hc).bind fun keyword c₁ => ?_
  refine (expect_mirrors (by decide)).bind fun left c₂ => ?_
  refine (commaList_mirrored _ hr.expression c₂).bind fun list c₃ => ?_
  refine (expect_mirrors (by decide)).bind fun right c₄ => ?_
  exact (statementEnd_mirrored c₄).bind fun stop c₅ => .pure (by simp)

theorem throwStatement_mirrors (hr : r.Mirrored f) (hc : c.seesInfix = false) :
    Mirrors f (Tree.rename f) c (throwStatement r) (throwStatement r) := by
  refine (token_mirrors hc).bind fun keyword c₁ => ?_
  refine (hr.expression c₁).bind fun value c₂ => ?_
  exact (statementEnd_mirrored c₂).bind fun stop c₃ => .pure (by simp)

theorem gotoStatement_mirrors (hc : c.seesInfix = false) :
    Mirrors f (Tree.rename f) c gotoStatement gotoStatement := by
  refine (token_mirrors hc).bind fun keyword c₁ => ?_
  refine (identifier_mirrored c₁).bind fun label c₂ => ?_
  exact (statementEnd_mirrored c₂).bind fun stop c₃ => .pure (by simp)

theorem labelStatement_mirrors (hc : c.seesInfix = false) (hn : ¬ c.atEnd = true)
    (hcolon : (c.peek 1).isPunctuator .colon = true) :
    Mirrors f (Tree.rename f) c labelStatement labelStatement := by
  refine .leaf hc ?_
  rw [Cursor.peek_one hn] at hcolon
  exact (token_mirrors (Cursor.not_infix_of_sees hcolon rfl)).bind fun colon c₁ => .pure (by simp)

theorem declareStatement_mirrors (hr : r.Mirrored f) (hc : c.seesInfix = false) :
    Mirrors f (Tree.rename f) c (declareStatement r) (declareStatement r) := by
  refine (token_mirrors hc).bind fun keyword c₁ => ?_
  refine (expect_mirrors (by decide)).bind fun left c₂ => ?_
  refine (commaList_mirrored _ (constantAssignment_mirrored hr) c₂).bind fun directives c₃ => ?_
  refine (expect_mirrors (by decide)).bind fun right c₄ => .get ?_
  refine .ite (by simp) (fun _ => ?_) fun _ => ?_
  · exact (statementEnd_mirrored c₄).bind fun body c₅ => .pure (by simp)
  · exact (hr.statement c₄).bind fun body c₅ => .pure (by simp)

theorem keywordStatements_mirrors (hr : r.Mirrored f) {entry : Keyword × Production Tree}
    (hm : entry ∈ keywordStatements r) (hc : c.seesInfix = false) :
    Mirrors f (Tree.rename f) c entry.2 entry.2 := by
  simp only [keywordStatements, List.mem_cons, List.not_mem_nil, or_false] at hm
  obtain rfl | rfl | rfl | rfl | rfl | rfl | rfl | rfl | rfl | rfl | rfl | rfl | rfl | rfl | rfl |
    rfl | rfl | rfl | rfl := hm
  · exact ifStatement_mirrors hr hc
  · exact whileStatement_mirrors hr hc
  · exact doWhileStatement_mirrors hr hc
  · exact forStatement_mirrors hr hc
  · exact foreachStatement_mirrors hr hc
  · exact switchStatement_mirrors hr hc
  · exact jumpStatement_mirrors hr _ hc
  · exact jumpStatement_mirrors hr _ hc
  · exact jumpStatement_mirrors hr _ hc
  · exact listStatement_mirrors _ hr.expression hc
  · exact listStatement_mirrors _ hr.access hc
  · exact unsetStatement_mirrors hr hc
  · exact throwStatement_mirrors hr hc
  · exact tryStatement_mirrors hr hc
  · exact gotoStatement_mirrors hc
  · exact declareStatement_mirrors hr hc
  · exact namespaceStatement_mirrors hr hc
  · exact useStatement_mirrors hc
  · exact constantDeclaration_mirrors hr hc

theorem keywordStatement_mirrors (hr : r.Mirrored f) (hk : c.current.kind = .identifier) :
    Mirrors f (Option.map (Tree.rename f)) c (keywordStatement r) (keywordStatement r) := by
  have hi : c.seesInfix = false := Cursor.not_infix_of_kind (by simp [hk])
  have hn : ¬ c.atEnd = true := by simp [Cursor.atEnd_iff, hk]
  refine .get (.ite (by simp) (fun _ => .pure rfl) fun _ => ?_)
  refine (declaration_mirrors hr (.node .plainList [])).bindOf fun o d hrun => ?_
  cases o with
  | some tree => exact .pure rfl
  | none =>
    obtain rfl := declaration_stays _ _ hrun rfl
    simp only [Cursor.seesKeyword_rename, Option.map_none]
    split
    · next hf =>
      exact (keywordStatements_mirrors hr (List.mem_of_find?_eq_some hf) hi).map fun _ => rfl
    refine .ite (by simp) (fun _ => ?_) fun _ => .ite ?_ (fun hp => ?_) fun _ => .pure rfl
    · exact (listStatement_mirrors _ (initialisedVariable_mirrored hr) hi).map fun _ => rfl
    · simp [f.isQualified_apply _ hk]
    · exact (labelStatement_mirrors hi hn (Bool.and_eq_true_iff.mp hp).1).map fun _ => rfl

theorem callStep_mirrors (hr : r.Mirrored f) (tree : Tree) :
    Mirrors f (Option.map (Tree.rename f)) c (callStep r tree) (callStep r (tree.rename f)) := by
  refine .get (.ite (by simp) (fun _ => ?_) fun _ => .pure rfl)
  exact (arguments_mirrored hr c).bind fun arguments c₁ => .pure (by simp)

theorem attributedStatement_mirrored (hr : r.Mirrored f) : (attributedStatement r).Mirrored f := by
  refine fun c => (attributes_mirrored hr c).bind fun attributes c₁ => ?_
  refine (declaration_mirrors hr attributes).bind fun o c₂ => ?_
  cases o with
  | some tree => exact .pure rfl
  | none =>
    refine (closure_mirrors hr attributes).bind fun body c₃ => ?_
    refine (chain_mirrors fun tree _ => callStep_mirrors hr tree).bind fun called c₄ => ?_
    exact (statementEnd_mirrored c₄).bind fun stop c₅ => .pure (by simp)

theorem expressionStatement_mirrored (hr : r.Mirrored f) : (expressionStatement r).Mirrored f :=
  fun c => (binary_mirrored hr 0 c).bind fun _ d =>
    (statementEnd_mirrored d).bind fun _ _ => .pure (by simp)

theorem plainStatement_mirrored (hr : r.Mirrored f) : (plainStatement r).Mirrored f := by
  refine fun c => .get (.ite (by simp) (fun _ => Nested.block_mirrored hr c) fun _ =>
    .ite (by simp) (fun hc => ?_) fun _ =>
    .ite (by simp) (fun _ => attributedStatement_mirrored hr c) fun _ =>
    expressionStatement_mirrored hr c)
  exact leaf_mirrors (Cursor.not_infix_of_sees hc rfl)

theorem statement_mirrored (hr : r.Mirrored f) : (statement r).Mirrored f := by
  intro c
  refine .get ?_
  rw [Cursor.current_rename, f.kind_apply]
  cases hk : c.current.kind with
  | inlineHtml | openTag | closeTag =>
    exact leaf_mirrors (Cursor.not_infix_of_kind (by simp [hk]))
  | openTagWithEcho =>
    exact listStatement_mirrors _ hr.expression (Cursor.not_infix_of_kind (by simp [hk]))
  | identifier =>
    refine (keywordStatement_mirrors hr hk).bind fun o d => ?_
    cases o with
    | some tree => exact .pure rfl
    | none => exact plainStatement_mirrored hr d
  | _ => exact plainStatement_mirrored hr c

end PhpSyntax.Grammar
