import PhpSyntax.Grammar.Statement
import PhpSyntax.Proofs.Grammar.Shape.Expressions

namespace PhpSyntax.Grammar

open Production
open PhpSyntax.Tree (Shaped SlotShaped IsOperand)

variable {r : Nested}

theorem alternativeBody_gives (hr : r.Shapes) (ends : List Keyword) :
    (alternativeBody r ends).Gives Shaped :=
  Nested.statements_gives hr _

theorem condition_gives (hr : r.Shapes) : r.parenthesised.Gives Shaped :=
  (Nested.parenthesised_gives hr).imp fun _ h => h.shaped

theorem alternativeElseif_gives (hr : r.Shapes) : (alternativeElseif r).Gives Shaped := by
  refine token_gives.bind fun keyword h₁ => ?_
  refine (condition_gives hr).bind fun condition h₂ => ?_
  refine (expect_gives _).bind fun colon h₃ => ?_
  refine (alternativeBody_gives hr _).bind fun body h₄ => ?_
  exact .pure (.plain rfl (by simp [h₁, h₂, h₃, h₄]))

theorem alternativeElse_gives (hr : r.Shapes) : (alternativeElse r).Gives Shaped := by
  refine token_gives.bind fun keyword h₁ => ?_
  refine (expect_gives _).bind fun colon h₂ => ?_
  refine (alternativeBody_gives hr _).bind fun body h₃ => ?_
  exact .pure (.plain rfl (by simp [h₁, h₂, h₃]))

theorem alternativeIf_gives (hr : r.Shapes) {keyword condition colon : Tree}
    (h : keyword.Shaped) (h' : condition.Shaped) (hcolon : colon.Shaped) :
    (alternativeIf r keyword condition colon).Gives Shaped := by
  refine (alternativeBody_gives hr _).bind fun body h₁ => ?_
  refine (plainList_gives (alternativeElseif_gives hr)).bind fun elseifs h₂ => ?_
  refine (optional_gives _ (alternativeElse_gives hr)).bind fun otherwise h₃ => ?_
  refine (expectKeyword_gives _).bind fun close h₄ => ?_
  refine statementEnd_gives.bind fun stop h₅ => ?_
  exact .pure (.plain rfl (by simp [h, h', hcolon, h₁, h₂, h₃, h₄, h₅]))

structure IsElseif (clause : Tree) (d : Cursor) : Prop where
  shaped : clause.Shaped
  kind : clause.kind = .elseifClause
  body : ∃ body, clause.child? 2 = some body ∧ (body.ReachesOpen → d.seesBranch = false)

theorem elseif_ensures (hr : r.Shapes) ⦃c : Cursor⦄ (hc : c.Ends)
    (hm : c.seesKeyword .kwElseif = true) :
    (elseif r).Ensures c fun t d => c.Precedes d ∧ IsElseif t d := by
  have hnext := Cursor.precedes_next hc (Cursor.not_atEnd_of_seesKeyword hm)
  have hd := hnext.leads.ends hc
  refine .leaf ?_
  refine (condition_gives hr hd).bind fun condition e h₁ => ?_
  refine (hr.branch (h₁.1.ends hd)).bind fun body f h₂ => ?_
  refine .pure ⟨hnext.trans_leads (h₁.1.trans h₂.1), ?_, rfl, body, rfl, h₂.2.2⟩
  exact .plain rfl (by simp [h₁.2, h₂.2.1])

/-- What a condition does otherwise, read from `c` to `d`. Without it no `else` stands there. -/
def IsOtherwise (c : Cursor) (otherwise : Option Tree) (d : Cursor) : Prop :=
  match otherwise with
  | some clause => c.seesKeyword .kwElse = true ∧ clause.Shaped ∧ clause.kind = .elseClause ∧
      ∃ body, clause.child? 1 = some body ∧ (body.ReachesOpen → d.seesBranch = false)
  | none => c = d ∧ c.seesKeyword .kwElse = false

theorem otherwise_ensures (hr : r.Shapes) ⦃c : Cursor⦄ (hc : c.Ends) :
    (Production.optional (·.seesKeyword .kwElse) (elseClause r)).Ensures c fun o d =>
      c.Leads d ∧ IsOtherwise c o d := by
  refine .get ?_
  split
  · next hm =>
    refine .map ?_
    refine (token_gives hc).bind fun keyword d h₁ => ?_
    refine (hr.branch (h₁.1.ends hc)).bind fun body e h₂ => ?_
    refine .pure ⟨h₁.1.trans h₂.1, hm, ?_, rfl, body, rfl, h₂.2.2⟩
    exact .plain rfl (by simp [h₁.2, h₂.2.1])
  · next hm => exact .pure ⟨.refl, rfl, by simpa using hm⟩

def conditionTree (keyword condition body : Tree) (clauses : List Tree) (otherwise : Option Tree) :
    Tree :=
  .node .ifStatement
    [keyword, condition, body, Tree.node .plainList (clauses.map some), otherwise]

section Branches

variable {keyword condition body : Tree} {clauses : List Tree} {otherwise : Option Tree}
  {c d e : Cursor}

@[simp]
theorem conditionTree_elseifs :
    (conditionTree keyword condition body clauses otherwise).elementsAt 3 = clauses :=
  Tree.RowAt.elementsAt_eq rfl

@[simp]
theorem conditionTree_otherwise :
    (conditionTree keyword condition body clauses otherwise).child? 4 = otherwise :=
  Option.join_some

variable (hclauses : Rounds (·.seesKeyword .kwElseif) IsElseif c clauses d)
  (hother : IsOtherwise d otherwise e)
include hclauses hother

/-- A statement that another branch follows ends with no open condition. -/
theorem not_reachesOpen {t : Tree} (ht : t.ReachesOpen → c.seesBranch = false)
    (h : clauses ≠ [] ∨ otherwise.isSome) : ¬ t.ReachesOpen := by
  intro hopen
  have hnone := ht hopen
  rw [Cursor.seesBranch, Bool.or_eq_false_iff] at hnone
  obtain hm | ⟨rfl, rfl⟩ := hclauses.more_or
  · exact absurd hm (by simp [hnone.1])
  · obtain h | h := h
    · exact absurd rfl h
    · obtain ⟨clause, rfl⟩ := Option.isSome_iff_exists.mp h
      exact absurd hother.1 (by simp [hnone.2])

theorem conditionTree_branched (hbody : body.ReachesOpen → c.seesBranch = false) :
    (conditionTree keyword condition body clauses otherwise).Branched where
  body := by
    rw [conditionTree_elseifs, conditionTree_otherwise]
    exact ⟨body, rfl, not_reachesOpen hclauses hother hbody⟩
  elseifs := by
    rw [conditionTree_elseifs, conditionTree_otherwise]
    rintro front clause back rfl
    obtain ⟨_, hclause, hback⟩ := hclauses.split
    obtain ⟨inner, hinner, hcloses⟩ := hclause.body
    exact ⟨inner, hclause.kind, hinner, not_reachesOpen hback hother hcloses⟩
  otherwise := by
    rw [conditionTree_otherwise]
    rintro clause rfl
    obtain ⟨-, -, hkind, inner, hinner, -⟩ := hother
    exact ⟨hkind, by rw [hinner]; rfl⟩

theorem conditionTree_shaped (hkeyword : keyword.Shaped) (hcondition : condition.Shaped)
    (hbody : body.Shaped ∧ (body.ReachesOpen → c.seesBranch = false)) :
    (conditionTree keyword condition body clauses otherwise).Shaped := by
  have hlist : (Tree.node .plainList (clauses.map some)).Shaped := by
    refine .plain rfl (Tree.slotsShaped_map_some fun clause hclause => ?_)
    obtain ⟨front, back, rfl⟩ := List.append_of_mem hclause
    obtain ⟨_, hclause, -⟩ := hclauses.split
    exact hclause.shaped
  have hlast : SlotShaped otherwise := by
    rintro clause rfl
    exact hother.2.1
  refine .node ?_ (by simp [hkeyword, hcondition, hbody.1, hlist, hlast])
  exact { branches := fun _ => conditionTree_branched hclauses hother hbody.2 }

/-- If nothing is done otherwise, neither of the branches was there to read. -/
theorem conditionTree_closes
    (h : (conditionTree keyword condition body clauses otherwise).ReachesOpen) :
    e.seesBranch = false := by
  cases otherwise with
  | none =>
    obtain ⟨rfl, helse⟩ := hother
    rw [Cursor.seesBranch, hclauses.stops, helse]
    rfl
  | some clause =>
    obtain ⟨-, -, -, inner, hinner, hcloses⟩ := hother
    refine hcloses (Tree.reachesOpen_of_tail ?_ ?_ h)
    · exact hinner
    · rintro ⟨-, hnone⟩
      cases hnone

end Branches

/-- What follows the test of a condition. -/
theorem branches_ensures (hr : r.Shapes) {keyword condition : Tree} (h : keyword.Shaped)
    (h' : condition.Shaped) ⦃c : Cursor⦄ (hc : c.Ends) :
    (do
      let body ← r.statement
      let elseifs ← gatherTrees (·.seesKeyword .kwElseif) (elseif r)
      let otherwise ← Production.optional (·.seesKeyword .kwElse) (elseClause r)
      return .node .ifStatement
        [keyword, condition, body, Tree.node .plainList elseifs, otherwise] :
      Production Tree).Ensures c fun t d =>
      c.Leads d ∧ t.Shaped ∧ (t.ReachesOpen → d.seesBranch = false) := by
  refine (hr.branch hc).bind fun body d hbody => ?_
  have hd := hbody.1.ends hc
  refine (gatherTrees_rounds (elseif_ensures hr) hd).bind fun slots e helse => ?_
  obtain ⟨hde, clauses, rfl, hclauses⟩ := helse
  refine (otherwise_ensures hr (hde.ends hd)).bind fun otherwise f hother => ?_
  refine .pure ⟨hbody.1.trans (hde.trans hother.1), ?_, ?_⟩
  · exact conditionTree_shaped hclauses hother.2 h h' hbody.2
  · exact conditionTree_closes hclauses hother.2

theorem ifStatement_gives (hr : r.Shapes) : (ifStatement r).Gives Shaped := by
  refine token_gives.bind fun keyword h₁ => ?_
  refine (condition_gives hr).bind fun condition h₂ => ?_
  refine (eat_gives .colon).bind fun o h₃ => ?_
  cases o with
  | some colon => exact alternativeIf_gives hr h₁ h₂ (Tree.slotShaped_some.mp h₃)
  | none => exact fun c hc => (branches_ensures hr h₁ h₂ hc).imp fun _ _ hd => ⟨hd.1, hd.2.1⟩

theorem whileStatement_gives (hr : r.Shapes) : (whileStatement r).Gives Shaped := by
  refine token_gives.bind fun keyword h₁ => ?_
  refine (condition_gives hr).bind fun condition h₂ => ?_
  refine (eat_gives .colon).bind fun o h₃ => ?_
  cases o with
  | some colon =>
    rw [Tree.slotShaped_some] at h₃
    refine (alternativeBody_gives hr _).bind fun body h₄ => ?_
    refine (expectKeyword_gives _).bind fun close h₅ => ?_
    refine statementEnd_gives.bind fun stop h₆ => ?_
    exact .pure (.plain rfl (by simp [h₁, h₂, h₃, h₄, h₅, h₆]))
  | none =>
    refine hr.statement.bind fun body h₄ => ?_
    exact .pure (.plain rfl (by simp [h₁, h₂, h₄]))

theorem doWhileStatement_gives (hr : r.Shapes) : (doWhileStatement r).Gives Shaped := by
  refine token_gives.bind fun keyword h₁ => ?_
  refine hr.statement.bind fun body h₂ => ?_
  refine (expectKeyword_gives _).bind fun whileKeyword h₃ => ?_
  refine (condition_gives hr).bind fun condition h₄ => ?_
  refine statementEnd_gives.bind fun stop h₅ => ?_
  exact .pure (.plain rfl (by simp [h₁, h₂, h₃, h₄, h₅]))

theorem forStatement_gives (hr : r.Shapes) : (forStatement r).Gives Shaped := by
  refine token_gives.bind fun keyword h₁ => ?_
  refine (expect_gives _).bind fun left h₂ => ?_
  refine (commaList_gives _ hr.expression).bind fun start h₃ => ?_
  refine (expect_gives _).bind fun firstSemicolon h₄ => ?_
  refine (commaList_gives _ hr.expression).bind fun condition h₅ => ?_
  refine (expect_gives _).bind fun secondSemicolon h₆ => ?_
  refine (commaList_gives _ hr.expression).bind fun step h₇ => ?_
  refine (expect_gives _).bind fun right h₈ => ?_
  refine (eat_gives .colon).bind fun o h₉ => ?_
  cases o with
  | some colon =>
    rw [Tree.slotShaped_some] at h₉
    refine (alternativeBody_gives hr _).bind fun body h₁₀ => ?_
    refine (expectKeyword_gives _).bind fun close h₁₁ => ?_
    refine statementEnd_gives.bind fun stop h₁₂ => ?_
    exact .pure (.plain rfl
      (by simp [h₁, h₂, h₃, h₄, h₅, h₆, h₇, h₈, h₉, h₁₀, h₁₁, h₁₂]))
  | none =>
    refine hr.statement.bind fun body h₁₀ => ?_
    exact .pure (.plain rfl (by simp [h₁, h₂, h₃, h₄, h₅, h₆, h₇, h₈, h₁₀]))

theorem foreachTarget_gives (hr : r.Shapes) : (foreachTarget r).Gives Shaped := by
  refine .get fun c => ?_
  split
  · exact referenceValue_gives hr
  · exact hr.access.imp fun _ h => h.shaped

theorem foreachTargets_gives (hr : r.Shapes) : (foreachTargets r).Gives fun q =>
    SlotShaped q.1 ∧ SlotShaped q.2.1 ∧ q.2.2.Shaped := by
  refine (foreachTarget_gives hr).bind fun first h₁ => ?_
  refine (eat_gives .doubleArrow).bind fun o h₂ => ?_
  cases o with
  | some arrow =>
    refine (foreachTarget_gives hr).bind fun value h₃ => ?_
    exact .pure ⟨Tree.slotShaped_some.mpr h₁, h₂, h₃⟩
  | none => exact .pure ⟨Tree.slotShaped_none, Tree.slotShaped_none, h₁⟩

theorem foreachStatement_gives (hr : r.Shapes) : (foreachStatement r).Gives Shaped := by
  refine token_gives.bind fun keyword h₁ => ?_
  refine (expect_gives _).bind fun left h₂ => ?_
  refine hr.expression.bind fun subject h₃ => ?_
  refine (expectKeyword_gives _).bind fun asKeyword h₄ => ?_
  refine (foreachTargets_gives hr).bind fun targets h₅ => ?_
  refine (expect_gives _).bind fun right h₆ => ?_
  refine (eat_gives .colon).bind fun o h₇ => ?_
  cases o with
  | some colon =>
    rw [Tree.slotShaped_some] at h₇
    refine (alternativeBody_gives hr _).bind fun body h₈ => ?_
    refine (expectKeyword_gives _).bind fun close h₉ => ?_
    refine statementEnd_gives.bind fun stop h₁₀ => ?_
    exact .pure (.plain rfl (by simp [h₁, h₂, h₃, h₄, h₅, h₆, h₇, h₈, h₉, h₁₀]))
  | none =>
    refine hr.statement.bind fun body h₈ => ?_
    exact .pure (.plain rfl (by simp [h₁, h₂, h₃, h₄, h₅, h₆, h₈]))

theorem caseSeparator_gives : caseSeparator.Gives Shaped :=
  (leafIf_gives _ _ rfl).imp fun _ h => h.shaped

theorem switchClause_gives (hr : r.Shapes) (stop : Cursor → Bool) :
    (switchClause r stop).Gives Shaped := by
  refine .get fun c => ?_
  split
  · refine token_gives.bind fun keyword h₁ => ?_
    refine hr.expression.bind fun value h₂ => ?_
    refine caseSeparator_gives.bind fun separator h₃ => ?_
    refine (Nested.statements_gives hr _).bind fun body h₄ => ?_
    exact .pure (.plain rfl (by simp [h₁, h₂, h₃, h₄]))
  split
  · refine token_gives.bind fun keyword h₁ => ?_
    refine caseSeparator_gives.bind fun separator h₂ => ?_
    refine (Nested.statements_gives hr _).bind fun body h₃ => ?_
    exact .pure (.plain rfl (by simp [h₁, h₂, h₃]))
  · exact .expected

theorem switchClauses_gives (hr : r.Shapes) (stop : Cursor → Bool) :
    (switchClauses r stop).Gives Shaped :=
  (plainList_gives (switchClause_gives hr stop)).bind fun _ h => .pure h

theorem switchStatement_gives (hr : r.Shapes) : (switchStatement r).Gives Shaped := by
  refine token_gives.bind fun keyword h₁ => ?_
  refine (condition_gives hr).bind fun subject h₂ => ?_
  refine (eat_gives .colon).bind fun o h₃ => ?_
  cases o with
  | some colon =>
    rw [Tree.slotShaped_some] at h₃
    refine (switchClauses_gives hr _).bind fun clauses h₄ => ?_
    refine (expectKeyword_gives _).bind fun close h₅ => ?_
    refine statementEnd_gives.bind fun stop h₆ => ?_
    exact .pure (.plain rfl (by simp [h₁, h₂, h₃, h₄, h₅, h₆]))
  | none =>
    refine (expect_gives _).bind fun left h₄ => ?_
    refine (switchClauses_gives hr _).bind fun clauses h₅ => ?_
    refine (expect_gives _).bind fun right h₆ => ?_
    exact .pure (.plain rfl (by simp [h₁, h₂, h₄, h₅, h₆]))

theorem catchBlock_gives (hr : r.Shapes) : (catchBlock r).Gives Shaped := by
  refine token_gives.bind fun keyword h₁ => ?_
  refine (expect_gives _).bind fun left h₂ => ?_
  refine (delimited_gives .pipe (fun _ h => h.shaped) name_gives).bind fun types h₃ => ?_
  refine (optional_gives _ (variableName_gives.imp fun _ h => h.shaped)).bind
    fun variableName h₄ => ?_
  refine (expect_gives _).bind fun right h₅ => ?_
  refine (Nested.block_gives hr).bind fun body h₆ => ?_
  exact .pure (.plain rfl (by simp [h₁, h₂, h₃.shaped, h₄, h₅, h₆.1]))

theorem finallyClause_gives (hr : r.Shapes) : (finallyClause r).Gives Shaped := by
  refine token_gives.bind fun keyword h₁ => ?_
  refine (Nested.block_gives hr).bind fun body h₂ => ?_
  exact .pure (.plain rfl (by simp [h₁, h₂.1]))

theorem tryStatement_gives (hr : r.Shapes) : (tryStatement r).Gives Shaped := by
  refine token_gives.bind fun keyword h₁ => ?_
  refine (Nested.block_gives hr).bind fun body h₂ => ?_
  refine (plainList_gives (catchBlock_gives hr)).bind fun catches h₃ => ?_
  refine (optional_gives _ (finallyClause_gives hr)).bind fun last h₄ => ?_
  split
  · exact .expected
  · exact .pure (.plain rfl (by simp [h₁, h₂.1, h₃, h₄]))

theorem jumpStatement_gives (hr : r.Shapes) {kind : Kind} (hk : kind.isPlain = true) :
    (jumpStatement r kind).Gives Shaped := by
  refine token_gives.bind fun keyword h₁ => ?_
  refine (optional_gives _ hr.expression).bind fun value h₂ => ?_
  refine statementEnd_gives.bind fun stop h₃ => ?_
  exact .pure (.plain hk (by simp [h₁, h₂, h₃]))

theorem listStatement_gives {kind : Kind} {item : Production Tree} (hk : kind.isPlain = true)
    (hi : item.Gives Shaped) : (listStatement kind item).Gives Shaped := by
  refine token_gives.bind fun keyword h₁ => ?_
  refine (commaList_gives _ hi).bind fun list h₂ => ?_
  refine statementEnd_gives.bind fun stop h₃ => ?_
  exact .pure (.plain hk (by simp [h₁, h₂, h₃]))

theorem unsetStatement_gives (hr : r.Shapes) : (unsetStatement r).Gives Shaped := by
  refine token_gives.bind fun keyword h₁ => ?_
  refine (expect_gives _).bind fun left h₂ => ?_
  refine (commaList_gives _ hr.expression).bind fun list h₃ => ?_
  refine (expect_gives _).bind fun right h₄ => ?_
  refine statementEnd_gives.bind fun stop h₅ => ?_
  exact .pure (.plain rfl (by simp [h₁, h₂, h₃, h₄, h₅]))

theorem throwStatement_gives (hr : r.Shapes) : (throwStatement r).Gives Shaped := by
  refine token_gives.bind fun keyword h₁ => ?_
  refine hr.expression.bind fun value h₂ => ?_
  refine statementEnd_gives.bind fun stop h₃ => ?_
  exact .pure (.plain rfl (by simp [h₁, h₂, h₃]))

theorem gotoStatement_gives : gotoStatement.Gives Shaped := by
  refine token_gives.bind fun keyword h₁ => ?_
  refine identifier_gives.bind fun label h₂ => ?_
  refine statementEnd_gives.bind fun stop h₃ => ?_
  exact .pure (.plain rfl (by simp [h₁, h₂.shaped, h₃]))

theorem labelStatement_gives : labelStatement.Gives Shaped := by
  refine (leaf_gives rfl).bind fun label h₁ => ?_
  refine token_gives.bind fun colon h₂ => ?_
  exact .pure (.plain rfl (by simp [h₁.shaped, h₂]))

theorem declareStatement_gives (hr : r.Shapes) : (declareStatement r).Gives Shaped := by
  refine token_gives.bind fun keyword h₁ => ?_
  refine (expect_gives _).bind fun left h₂ => ?_
  refine (commaList_gives _ (constantAssignment_gives hr)).bind fun directives h₃ => ?_
  refine (expect_gives _).bind fun right h₄ => .get fun c => ?_
  split
  · refine statementEnd_gives.bind fun body h₅ => ?_
    exact .pure (.plain rfl (by simp [h₁, h₂, h₃, h₄, h₅]))
  · refine hr.statement.bind fun body h₅ => ?_
    exact .pure (.plain rfl (by simp [h₁, h₂, h₃, h₄, h₅]))

theorem keywordStatements_gives (hr : r.Shapes) :
    ∀ s ∈ keywordStatements r, s.2.Gives Shaped := by
  have access : r.access.Gives Shaped := hr.access.imp fun _ h => h.shaped
  simp only [keywordStatements, List.forall_mem_cons]
  exact ⟨ifStatement_gives hr, whileStatement_gives hr, doWhileStatement_gives hr,
    forStatement_gives hr, foreachStatement_gives hr, switchStatement_gives hr,
    jumpStatement_gives hr rfl, jumpStatement_gives hr rfl, jumpStatement_gives hr rfl,
    listStatement_gives rfl hr.expression, listStatement_gives rfl access,
    unsetStatement_gives hr, throwStatement_gives hr, tryStatement_gives hr,
    gotoStatement_gives, declareStatement_gives hr, namespaceStatement_gives hr,
    useStatement_gives, constantDeclaration_gives hr, nofun⟩

theorem keywordStatement_gives (hr : r.Shapes) : (keywordStatement r).Gives SlotShaped := by
  have found : ∀ {p : Production Tree}, p.Gives Shaped → (some <$> p).Gives SlotShaped :=
    fun hp => .map (hp.imp fun _ => Tree.slotShaped_some.mpr)
  refine .get fun c => ?_
  split
  · exact .pure Tree.slotShaped_none
  refine (declaration_gives hr attributes_nil).bind fun o h₁ => ?_
  cases o with
  | some tree => exact .pure h₁
  | none =>
    dsimp only
    split
    · next hfind => exact found (keywordStatements_gives hr _ (List.mem_of_find?_eq_some hfind))
    split
    · exact found (listStatement_gives rfl (initialisedVariable_gives hr))
    split
    · exact found labelStatement_gives
    · exact .pure Tree.slotShaped_none

theorem callStep_gives (hr : r.Shapes) {tree : Tree} (h : tree.IsOperand) :
    (callStep r tree).Gives fun o => ∀ larger ∈ o, larger.IsOperand := by
  refine .get fun c => ?_
  split
  · refine (arguments_gives hr).bind fun arguments h₁ => .pure ?_
    rintro _ ⟨⟩
    exact functionCall_operand h.shaped h₁.1 h₁.2
  · exact .pure nofun

theorem attributedStatement_gives (hr : r.Shapes) : (attributedStatement r).Gives Shaped := by
  refine (attributes_gives hr).bind fun attributes h₁ => ?_
  refine (declaration_gives hr h₁).bind fun o h₂ => ?_
  cases o with
  | some tree => exact .pure (Tree.slotShaped_some.mp h₂)
  | none =>
    refine (closure_gives hr h₁.1).bind fun closure h₃ => ?_
    refine (chain_gives (fun _ => callStep_gives hr) h₃).bind fun called h₄ => ?_
    refine statementEnd_gives.bind fun stop h₅ => ?_
    exact .pure (.plain rfl (by simp [h₄.shaped, h₅]))

theorem expressionStatement_gives (hr : r.Shapes) : (expressionStatement r).Gives Shaped := by
  refine (expression_gives hr).bind fun value h₁ => ?_
  refine statementEnd_gives.bind fun stop h₂ => ?_
  exact .pure (.plain rfl (by simp [h₁, h₂]))

theorem plainStatement_gives (hr : r.Shapes) : (plainStatement r).Gives Shaped := by
  refine .get fun c => ?_
  split
  · exact (Nested.block_gives hr).imp fun _ h => h.1
  split
  · exact (leaf_gives rfl).imp fun _ h => h.shaped
  split
  · exact attributedStatement_gives hr
  · exact expressionStatement_gives hr

theorem statement_gives (hr : r.Shapes) : (statement r).Gives Shaped := by
  have html : (leaf .inlineHtml).Gives Shaped := (leaf_gives rfl).imp fun _ h => h.shaped
  refine .get fun c => ?_
  split
  · exact html
  · exact html
  · exact html
  · exact listStatement_gives rfl hr.expression
  · refine (keywordStatement_gives hr).bind fun o h => ?_
    cases o with
    | some tree => exact .pure (Tree.slotShaped_some.mp h)
    | none => exact plainStatement_gives hr
  · exact plainStatement_gives hr

end PhpSyntax.Grammar
