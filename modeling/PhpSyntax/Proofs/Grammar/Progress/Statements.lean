import Mathlib.Data.List.Forall2
import PhpSyntax.Proofs.Grammar.Progress.Expressions
import PhpSyntax.Proofs.Grammar.Statements

namespace PhpSyntax.Grammar

open Production

variable {n : Nat} {r r' : Nested}

theorem alternativeBody_keeps (hr : r.AgreesUpTo n r') (ends : List Keyword) :
    Keeps n (alternativeBody r ends) (alternativeBody r' ends) :=
  Nested.statements_keeps hr _

theorem alternativeElseif_opens (hr : r.AgreesUpTo n r') :
    Opens n (alternativeElseif r) (alternativeElseif r') := by
  refine .leaf fun keyword => (Nested.parenthesised_takes hr).keepsInside.bind fun condition => ?_
  exact (expect_takes _).keeps.bind fun colon => (alternativeBody_keeps hr _).bind fun _ => .pure _

theorem alternativeElse_opens (hr : r.AgreesUpTo n r') :
    Opens n (alternativeElse r) (alternativeElse r') :=
  .leaf fun _ => (expect_takes _).keeps.bind fun _ => (alternativeBody_keeps hr _).bind
    fun _ => .pure _

/-- Parts of a statement that each start with the same word. -/
theorem clauses_keep {p q : Production Tree} (h : Opens n p q) (k : Keyword) :
    Keeps n (gatherTrees (·.seesKeyword k) p) (gatherTrees (·.seesKeyword k) q) :=
  gatherTrees_keeps fun _ hc hm =>
    h.takesInside hc (Cursor.not_atEnd_of_seesKeyword hm)

theorem alternativeIf_keeps (hr : r.AgreesUpTo n r') (keyword condition colon : Tree) :
    Keeps n (alternativeIf r keyword condition colon)
      (alternativeIf r' keyword condition colon) := by
  refine (alternativeBody_keeps hr _).bind fun body => ?_
  refine (clauses_keep (alternativeElseif_opens hr) _).bind fun elseifs => ?_
  refine (optional_keeps _ (alternativeElse_opens hr).keeps).bind fun otherwise => ?_
  refine (expectKeyword_takes _).keeps.bind fun close => ?_
  exact statementEnd_takes.keeps.bind fun _ => .pure _

theorem elseif_opens (hr : r.AgreesUpTo n r') : Opens n (elseif r) (elseif r') := by
  refine .leaf fun keyword => (Nested.parenthesised_takes hr).keepsInside.bind fun condition => ?_
  exact hr.statement.keeps.bind fun body => .pure _

theorem elseClause_opens (hr : r.AgreesUpTo n r') : Opens n (elseClause r) (elseClause r') :=
  .leaf fun _ => hr.statement.keeps.bind fun _ => .pure _

theorem ifStatement_opens (hr : r.AgreesUpTo n r') :
    Opens n (ifStatement r) (ifStatement r') := by
  refine .leaf fun keyword => (Nested.parenthesised_takes hr).keepsInside.bind fun condition => ?_
  refine (eat_keeps .colon).bind fun o => ?_
  cases o with
  | some colon => exact alternativeIf_keeps hr keyword condition colon
  | none =>
    refine hr.statement.keeps.bind fun body => ?_
    refine (clauses_keep (elseif_opens hr) _).bind fun elseifs => ?_
    exact (optional_keeps _ (elseClause_opens hr).keeps).bind fun otherwise => .pure _

/-- The statements of a second form and the words that close it. -/
theorem closed_keeps (hr : r.AgreesUpTo n r') (k : Keyword) (f : Tree → Tree → Tree → Tree) :
    Keeps n
      (do
        let body ← alternativeBody r [k]
        let close ← expectKeyword k
        return f body close (← statementEnd))
      (do
        let body ← alternativeBody r' [k]
        let close ← expectKeyword k
        return f body close (← statementEnd)) := by
  refine (alternativeBody_keeps hr _).bind fun body => ?_
  refine (expectKeyword_takes _).keeps.bind fun close => ?_
  exact statementEnd_takes.keeps.bind fun _ => .pure _

theorem whileStatement_opens (hr : r.AgreesUpTo n r') :
    Opens n (whileStatement r) (whileStatement r') := by
  refine .leaf fun keyword => (Nested.parenthesised_takes hr).keepsInside.bind fun condition => ?_
  refine (eat_keeps .colon).bind fun o => ?_
  cases o with
  | some colon => exact closed_keeps hr _ _
  | none => exact hr.statement.keeps.bind fun body => .pure _

theorem doWhileStatement_opens (hr : r.AgreesUpTo n r') :
    Opens n (doWhileStatement r) (doWhileStatement r') := by
  refine .leaf fun keyword => hr.statement.keeps.bind fun body => ?_
  refine (expectKeyword_takes _).keeps.bind fun whileKeyword => ?_
  refine (Nested.parenthesised_takes hr).keepsInside.bind fun condition => ?_
  exact statementEnd_takes.keeps.bind fun _ => .pure _

theorem forStatement_opens (hr : r.AgreesUpTo n r') :
    Opens n (forStatement r) (forStatement r') := by
  refine .leaf fun keyword => (expect_takes _).keeps.bind fun left => ?_
  refine (commaList_keeps _ hr.expression).bind fun start => ?_
  refine (expect_takes _).keeps.bind fun firstSemicolon => ?_
  refine (commaList_keeps _ hr.expression).bind fun condition => ?_
  refine (expect_takes _).keeps.bind fun secondSemicolon => ?_
  refine (commaList_keeps _ hr.expression).bind fun step => ?_
  refine (expect_takes _).keeps.bind fun right => (eat_keeps .colon).bind fun o => ?_
  cases o with
  | some colon => exact closed_keeps hr _ _
  | none => exact hr.statement.keeps.bind fun body => .pure _

theorem foreachTarget_takes (hr : r.AgreesUpTo n r') :
    Takes n (foreachTarget r) (foreachTarget r') := by
  refine fun c hc => .get (.ite (fun _ => ?_) fun _ => ?_)
  · exact referenceValue_takes hr (hc.mono n.le_succ)
  · exact hr.access hc

theorem foreachTargets_takes (hr : r.AgreesUpTo n r') :
    Takes n (foreachTargets r) (foreachTargets r') := by
  refine (foreachTarget_takes hr).andThen fun first => (eat_keeps .doubleArrow).bind fun o => ?_
  cases o with
  | some arrow => exact (foreachTarget_takes hr).keeps.bind fun value => .pure _
  | none => exact .pure _

theorem foreachStatement_opens (hr : r.AgreesUpTo n r') :
    Opens n (foreachStatement r) (foreachStatement r') := by
  refine .leaf fun keyword => (expect_takes _).keeps.bind fun left => ?_
  refine hr.expression.keeps.bind fun subject => ?_
  refine (expectKeyword_takes _).keeps.bind fun asKeyword => ?_
  refine (foreachTargets_takes hr).keeps.bind fun targets => ?_
  refine (expect_takes _).keeps.bind fun right => (eat_keeps .colon).bind fun o => ?_
  cases o with
  | some colon => exact closed_keeps hr _ _
  | none => exact hr.statement.keeps.bind fun body => .pure _

theorem caseSeparator_takes : Takes n caseSeparator caseSeparator :=
  takes_of_took fun _ => caseSeparator_took

theorem switchClause_takes (hr : r.AgreesUpTo n r') (stop : Cursor → Bool) :
    Takes (n + 1) (switchClause r stop) (switchClause r' stop) := by
  refine fun c hc => .get (.ite (fun hs => ?_) fun _ => .ite (fun hs => ?_) fun _ => .expected)
  · refine (Opens.leaf fun keyword => ?_).takes hc (Cursor.not_atEnd_of_seesKeyword hs)
    refine hr.expression.keeps.bind fun value => caseSeparator_takes.keeps.bind fun separator => ?_
    exact (Nested.statements_keeps hr _).bind fun _ => .pure _
  · refine (Opens.leaf fun keyword => ?_).takes hc (Cursor.not_atEnd_of_seesKeyword hs)
    refine caseSeparator_takes.keeps.bind fun separator => ?_
    exact (Nested.statements_keeps hr _).bind fun _ => .pure _

theorem switchClauses_keeps (hr : r.AgreesUpTo n r') (stop : Cursor → Bool) :
    Keeps n (switchClauses r stop) (switchClauses r' stop) :=
  (gatherTrees_keeps fun _ hc _ => (switchClause_takes hr stop).mono n.le_succ hc).bind
    fun _ => .pure _

theorem switchStatement_opens (hr : r.AgreesUpTo n r') :
    Opens n (switchStatement r) (switchStatement r') := by
  refine .leaf fun keyword => (Nested.parenthesised_takes hr).keepsInside.bind fun subject => ?_
  refine (eat_keeps .colon).bind fun o => ?_
  cases o with
  | some colon =>
    refine (switchClauses_keeps hr _).bind fun clauses => ?_
    refine (expectKeyword_takes _).keeps.bind fun close => ?_
    exact statementEnd_takes.keeps.bind fun _ => .pure _
  | none =>
    refine (expect_takes _).keeps.bind fun left => (switchClauses_keeps hr _).bind fun clauses => ?_
    exact (expect_takes _).keeps.bind fun right => .pure _

theorem catchBlock_opens (hr : r.AgreesUpTo n r') : Opens n (catchBlock r) (catchBlock r') := by
  refine .leaf fun keyword => (expect_takes _).keeps.bind fun left => ?_
  refine (delimited_parses .pipe name_parses (by simp)).takes.keeps.bind fun types => ?_
  refine (optional_keeps _ variableName_parses.takes.keeps).bind fun variableName => ?_
  refine (expect_takes _).keeps.bind fun right => ?_
  exact (Nested.block_takes hr).keepsInside.bind fun body => .pure _

theorem finallyClause_opens (hr : r.AgreesUpTo n r') :
    Opens n (finallyClause r) (finallyClause r') :=
  .leaf fun _ => (Nested.block_takes hr).keepsInside.bind fun _ => .pure _

theorem tryStatement_opens (hr : r.AgreesUpTo n r') :
    Opens n (tryStatement r) (tryStatement r') := by
  refine .leaf fun keyword => (Nested.block_takes hr).keepsInside.bind fun body => ?_
  refine (clauses_keep (catchBlock_opens hr) _).bind fun catches => ?_
  refine (optional_keeps _ (finallyClause_opens hr).keeps).bind fun last => ?_
  exact fun c _ => .ite (fun _ => .expected) fun _ => .pure .refl

theorem jumpStatement_opens (hr : r.AgreesUpTo n r') (kind : Kind) :
    Opens n (jumpStatement r kind) (jumpStatement r' kind) := by
  refine .leaf fun keyword => (optional_keeps _ hr.expression.keeps).bind fun value => ?_
  exact statementEnd_takes.keeps.bind fun _ => .pure _

theorem listStatement_opens {p q : Production Tree} (h : Takes n p q) (kind : Kind) :
    Opens n (listStatement kind p) (listStatement kind q) := by
  refine .leaf fun keyword => (commaList_keeps _ h).bind fun list => ?_
  exact statementEnd_takes.keeps.bind fun _ => .pure _

theorem unsetStatement_opens (hr : r.AgreesUpTo n r') :
    Opens n (unsetStatement r) (unsetStatement r') := by
  refine .leaf fun keyword => (expect_takes _).keeps.bind fun left => ?_
  refine (commaList_keeps _ hr.expression).bind fun list => ?_
  refine (expect_takes _).keeps.bind fun right => ?_
  exact statementEnd_takes.keeps.bind fun _ => .pure _

theorem throwStatement_opens (hr : r.AgreesUpTo n r') :
    Opens n (throwStatement r) (throwStatement r') :=
  .leaf fun _ => hr.expression.keeps.bind fun _ => statementEnd_takes.keeps.bind fun _ => .pure _

theorem gotoStatement_opens : Opens n gotoStatement gotoStatement :=
  .leaf fun _ => identifier_parses.takes.keeps.bind fun _ =>
    statementEnd_takes.keeps.bind fun _ => .pure _

theorem labelStatement_opens : Opens n labelStatement labelStatement :=
  .leaf fun _ => (leaf_keeps .token).bind fun _ => .pure _

theorem declareStatement_opens (hr : r.AgreesUpTo n r') :
    Opens n (declareStatement r) (declareStatement r') := by
  refine .leaf fun keyword => (expect_takes _).keeps.bind fun left => ?_
  refine (commaList_keeps _ ((constantAssignment_takes hr).mono n.le_succ)).bind
    fun directives => ?_
  refine (expect_takes _).keeps.bind fun right c hc => .get (.ite (fun _ => ?_) fun _ => ?_)
  · exact (statementEnd_takes.keeps.bind fun _ => .pure _) hc
  · exact (hr.statement.keeps.bind fun _ => .pure _) hc

def SameEntry (n : Nat) (e e' : Keyword × Production Tree) : Prop :=
  e.1 = e'.1 ∧ Opens n e.2 e'.2

theorem keywordStatements_same (hr : r.AgreesUpTo n r') :
    List.Forall₂ (SameEntry n) (keywordStatements r) (keywordStatements r') :=
  .cons ⟨rfl, ifStatement_opens hr⟩ <| .cons ⟨rfl, whileStatement_opens hr⟩ <|
  .cons ⟨rfl, doWhileStatement_opens hr⟩ <| .cons ⟨rfl, forStatement_opens hr⟩ <|
  .cons ⟨rfl, foreachStatement_opens hr⟩ <| .cons ⟨rfl, switchStatement_opens hr⟩ <|
  .cons ⟨rfl, jumpStatement_opens hr _⟩ <| .cons ⟨rfl, jumpStatement_opens hr _⟩ <|
  .cons ⟨rfl, jumpStatement_opens hr _⟩ <|
  .cons ⟨rfl, listStatement_opens hr.expression _⟩ <|
  .cons ⟨rfl, listStatement_opens hr.access _⟩ <|
  .cons ⟨rfl, unsetStatement_opens hr⟩ <| .cons ⟨rfl, throwStatement_opens hr⟩ <|
  .cons ⟨rfl, tryStatement_opens hr⟩ <| .cons ⟨rfl, gotoStatement_opens⟩ <|
  .cons ⟨rfl, declareStatement_opens hr⟩ <| .cons ⟨rfl, namespaceStatement_opens hr⟩ <|
  .cons ⟨rfl, useStatement_opens⟩ <| .cons ⟨rfl, constantDeclaration_opens hr⟩ .nil

theorem find_same {l l' : List (Keyword × Production Tree)} (h : List.Forall₂ (SameEntry n) l l')
    (p : Keyword → Bool) :
    Option.Rel (SameEntry n) (l.find? fun e => p e.1) (l'.find? fun e => p e.1) := by
  induction h with
  | nil => exact .none
  | @cons e e' l l' he _ ih =>
    rw [List.find?_cons, List.find?_cons, ← he.1]
    cases p e.1 with
    | true => exact .some he
    | false => exact ih

/-- What holds of the declarations and of the statements that start with a token holds of all
statements that start with a reserved word or a label. -/
theorem keywordStatement_agrees (hr : r.AgreesUpTo n r') {c : Cursor}
    {post : Option Tree → Cursor → Prop} (hnone : post none c)
    (hdeclaration : ∀ attributes,
      Agrees (declaration r attributes) (declaration r' attributes) c post)
    (hopens : ∀ {p q : Production Tree}, Opens n p q → Agrees p q c fun t => post (some t)) :
    Agrees (keywordStatement r) (keywordStatement r') c post := by
  refine .get (.ite (fun _ => .pure hnone) fun _ => ?_)
  refine ((hdeclaration _).and declaration_stays).bind fun o d hd => ?_
  cases o with
  | some tree => exact .pure hd.1
  | none =>
    obtain rfl := hd.2 rfl
    dsimp only
    have hfound := find_same (keywordStatements_same hr) d.seesKeyword
    generalize (keywordStatements r).find? _ = entry, (keywordStatements r').find? _ = entry'
      at hfound ⊢
    cases hfound with
    | some he => exact .map (hopens he.2)
    | none =>
      refine .ite (fun _ => ?_) fun _ => .ite (fun _ => ?_) fun _ => .pure hnone
      · have hitem := (initialisedVariable_takes hr).mono n.le_succ
        exact .map (hopens (listStatement_opens hitem _))
      · exact .map (hopens labelStatement_opens)

theorem keywordStatement_offers (hr : r.AgreesUpTo n r') {c : Cursor} (hc : c.Fits (n + 1))
    (hn : ¬ c.atEnd = true) : Agrees (keywordStatement r) (keywordStatement r') c c.Offered :=
  keywordStatement_agrees hr Cursor.offered_none
    (fun attributes => declaration_offers hr attributes hc)
    fun h => (h.takes hc hn).imp fun _ _ hd => hd.offered

theorem keywordStatement_keeps (hr : r.AgreesUpTo n r') :
    Keeps n (keywordStatement r) (keywordStatement r') :=
  fun _ hc => keywordStatement_agrees hr .refl
    (fun attributes => (declaration_offers hr attributes).keeps (hc.mono n.le_succ))
    fun h => h.keeps hc

theorem callStep_offers (hr : r.AgreesUpTo n r') (tree : Tree) :
    Offers n (callStep r tree) (callStep r' tree) := by
  refine fun c hc => .get (.ite (fun _ => ?_) fun _ => .none)
  exact .offers (((arguments_takes hr).bind fun _ => .pure _).mono n.le_succ hc)

theorem attributedStatement_takes (hr : r.AgreesUpTo n r') :
    Takes (n + 1) (attributedStatement r) (attributedStatement r') := by
  refine (attributes_keeps hr).bindTakes fun attributes c hc => ?_
  refine (declaration_offers hr attributes hc).bindOffer (fun _ _ _ => .pure .refl) fun d hd => ?_
  refine (closure_takes hr attributes).bind (fun closure => ?_) (hc.leads hd)
  refine (chain_keeps (callStep_offers hr) closure).bind fun called => ?_
  exact statementEnd_takes.keeps.bind fun _ => .pure _

theorem expressionStatement_takes (hr : r.AgreesUpTo n r') :
    Takes (n + 1) (expressionStatement r) (expressionStatement r') :=
  (expression_takes hr).bind fun _ => statementEnd_takes.keeps.bind fun _ => .pure _

theorem plainStatement_takes (hr : r.AgreesUpTo n r') :
    Takes (n + 1) (plainStatement r) (plainStatement r') := by
  refine fun c hc => .get (.ite (fun _ => ?_) fun _ => .ite (fun hs => ?_) fun _ =>
    .ite (fun _ => ?_) fun _ => ?_)
  · exact Nested.block_takes hr hc
  · exact Opens.single.takes hc (Cursor.not_atEnd_of_sees hs)
  · exact attributedStatement_takes hr hc
  · exact expressionStatement_takes hr hc

theorem statement_takes (hr : r.AgreesUpTo n r') :
    Takes (n + 1) (statement r) (statement r') := by
  refine fun c hc => .get ?_
  have hn : c.current.kind ≠ .eof → ¬ c.atEnd = true := mt Cursor.atEnd_iff.mp
  cases hk : c.current.kind with
  | inlineHtml | openTag | closeTag => exact Opens.single.takes hc (hn (by simp [hk]))
  | openTagWithEcho => exact (listStatement_opens hr.expression _).takes hc (hn (by simp [hk]))
  | identifier =>
    refine (keywordStatement_offers hr hc (hn (by simp [hk]))).bindOffer
      (fun tree d _ => .pure .refl) fun d hd => ?_
    exact plainStatement_takes hr (hc.leads hd)
  | _ => exact plainStatement_takes hr hc

end PhpSyntax.Grammar
