import PhpSyntax.Proofs.Grammar.Shape.Statements

/-!
After a statement that ends with a condition without an `else`, none follows: it would have been
read as a part of that condition.
-/

namespace PhpSyntax.Grammar

open Production

namespace Production

variable {α : Type}

/-- The trees that `p` reads are no statements that end with others. -/
def Makes (p : Production Tree) : Prop :=
  ∀ c, p.Ensures c fun t _ => t.kind.hasTail = false

namespace Makes

theorem pure {t : Tree} (h : t.kind.hasTail = false) : Makes (Pure.pure t) :=
  fun _ => .pure h

theorem bind {x : Production α} {f : α → Production Tree} (hf : ∀ a, (f a).Makes) :
    (x >>= f).Makes :=
  fun _ => Ensures.bind (fun _ _ _ => trivial) fun a d _ => hf a d

theorem expected {what : Expectation} : Makes (Production.expected what) :=
  fun _ => .expected

theorem leaf {k : Kind} (h : k.hasTail = false) : Makes (Production.leaf k) :=
  bind fun _ => bind fun _ => pure h

theorem get {f : Cursor → Production Tree} (h : ∀ c, (f c).Makes) :
    (MonadState.get >>= f).Makes :=
  bind h

end Makes

namespace Closes

theorem bind {x : Production α} {f : α → Production Tree} {post : α → Prop} (hx : x.Gives post)
    (hf : ∀ a, (f a).Closes) : (x >>= f).Closes :=
  fun _ hc => (hx hc).bind fun a _ hd => hf a (hd.1.ends hc)

theorem get {f : Cursor → Production Tree} (h : ∀ c, (f c).Closes) :
    (MonadState.get >>= f).Closes :=
  fun c hc => .get (h c hc)

/-- The tree ends with the statement that was read last. -/
theorem last {x : Production Tree} {f : Tree → Tree} (hx : x.Closes)
    (htail : ∀ t, (f t).tail? = some t) (hopen : ∀ t, ¬ (f t).IsOpen) :
    (do return f (← x)).Closes :=
  fun _ hc => (hx hc).bind fun t _ hd =>
    .pure fun h => hd (Tree.reachesOpen_of_tail (htail t) (hopen t) h)

end Closes

theorem Makes.closes {p : Production Tree} (h : p.Makes) : p.Closes :=
  fun c _ => (h c).imp fun t _ ht hopen => absurd hopen.hasTail (by simp [ht])

end Production

variable {r : Nested}

section Makes

theorem block_makes : r.block.Makes :=
  .bind fun _ => .bind fun _ => .bind fun _ => .pure rfl

theorem functionDeclaration_makes (attributes : Tree) :
    (functionDeclaration r attributes).Makes :=
  .bind fun _ => .bind fun _ => .bind fun _ => .bind fun _ => .bind fun _ => .bind fun _ =>
    .pure rfl

theorem classDeclaration_makes (attributes : Tree) : (classDeclaration r attributes).Makes :=
  .bind fun _ => .bind fun _ => .bind fun _ => .bind fun _ => .bind fun _ => .bind fun _ =>
    .pure rfl

theorem interfaceDeclaration_makes (attributes : Tree) :
    (interfaceDeclaration r attributes).Makes :=
  .bind fun _ => .bind fun _ => .bind fun _ => .bind fun _ => .pure rfl

theorem traitDeclaration_makes (attributes : Tree) : (traitDeclaration r attributes).Makes :=
  .bind fun _ => .bind fun _ => .bind fun _ => .pure rfl

theorem enumDeclaration_makes (attributes : Tree) : (enumDeclaration r attributes).Makes :=
  .bind fun _ => .bind fun _ => .bind fun _ => .bind fun _ => .bind fun _ => .pure rfl

theorem declaration_makes (attributes : Tree) (c : Cursor) :
    (declaration r attributes).Ensures c fun o _ => ∀ t ∈ o, t.kind.hasTail = false := by
  have found : ∀ {p : Production Tree}, p.Makes →
      (some <$> p).Ensures c fun o _ => ∀ t ∈ o, t.kind.hasTail = false :=
    fun hp => .map ((hp c).imp fun _ _ ht => by simpa using ht)
  refine .get ?_
  dsimp only
  split
  · exact found (functionDeclaration_makes attributes)
  split
  · exact found (classDeclaration_makes attributes)
  split
  · exact .pure nofun
  split
  · exact found (interfaceDeclaration_makes attributes)
  split
  · exact found (traitDeclaration_makes attributes)
  split
  · exact found (enumDeclaration_makes attributes)
  · exact .pure nofun

theorem namespaceStatement_makes : (namespaceStatement r).Makes := by
  refine .bind fun _ => .bind fun _ => .get fun c => ?_
  split
  · exact .bind fun _ => .bind fun _ => .bind fun _ => .pure rfl
  · exact .bind fun _ => .pure rfl

theorem useStatement_makes : useStatement.Makes := by
  refine .bind fun _ => .bind fun _ => .bind fun _ => .get fun c => ?_
  split
  · exact .bind fun _ => .bind fun _ => .bind fun _ => .bind fun _ => .bind fun _ => .pure rfl
  · exact .bind fun _ => .bind fun _ => .bind fun _ => .pure rfl

theorem constantDeclaration_makes : (constantDeclaration r).Makes :=
  .bind fun _ => .bind fun _ => .bind fun _ => .pure rfl

theorem alternativeIf_makes (keyword condition colon : Tree) :
    (alternativeIf r keyword condition colon).Makes :=
  .bind fun _ => .bind fun _ => .bind fun _ => .bind fun _ => .bind fun _ => .pure rfl

theorem doWhileStatement_makes : (doWhileStatement r).Makes :=
  .bind fun _ => .bind fun _ => .bind fun _ => .bind fun _ => .bind fun _ => .pure rfl

theorem switchStatement_makes : (switchStatement r).Makes := by
  refine .bind fun _ => .bind fun _ => .bind fun o => ?_
  cases o with
  | some colon => exact .bind fun _ => .bind fun _ => .bind fun _ => .pure rfl
  | none => exact .bind fun _ => .bind fun _ => .bind fun _ => .pure rfl

theorem tryStatement_makes : (tryStatement r).Makes := by
  refine .bind fun _ => .bind fun _ => .bind fun _ => .bind fun _ => ?_
  split
  · exact .expected
  · exact .pure rfl

theorem jumpStatement_makes {kind : Kind} (hk : kind.hasTail = false) :
    (jumpStatement r kind).Makes :=
  .bind fun _ => .bind fun _ => .bind fun _ => .pure hk

theorem listStatement_makes {kind : Kind} (hk : kind.hasTail = false) (item : Production Tree) :
    (listStatement kind item).Makes :=
  .bind fun _ => .bind fun _ => .bind fun _ => .pure hk

theorem unsetStatement_makes : (unsetStatement r).Makes :=
  .bind fun _ => .bind fun _ => .bind fun _ => .bind fun _ => .bind fun _ => .pure rfl

theorem throwStatement_makes : (throwStatement r).Makes :=
  .bind fun _ => .bind fun _ => .bind fun _ => .pure rfl

theorem gotoStatement_makes : gotoStatement.Makes :=
  .bind fun _ => .bind fun _ => .bind fun _ => .pure rfl

theorem labelStatement_makes : labelStatement.Makes :=
  .bind fun _ => .bind fun _ => .pure rfl

theorem attributedStatement_makes : (attributedStatement r).Makes := by
  refine .bind fun attributes => fun c => ?_
  refine (declaration_makes attributes c).bind fun o d ho => ?_
  cases o with
  | some tree => exact .pure (ho tree rfl)
  | none => exact Makes.bind (fun _ => .bind fun _ => .bind fun _ => .pure rfl) d

theorem expressionStatement_makes : (expressionStatement r).Makes :=
  .bind fun _ => .bind fun _ => .pure rfl

theorem plainStatement_makes : (plainStatement r).Makes := by
  refine .get fun c => ?_
  split
  · exact block_makes
  split
  · exact .leaf rfl
  split
  · exact attributedStatement_makes
  · exact expressionStatement_makes

end Makes

section Closes

theorem ifStatement_closes (hr : r.Shapes) : (ifStatement r).Closes := by
  intro c hc
  refine (token_gives hc).bind fun keyword d h₁ => ?_
  have hd := h₁.1.ends hc
  refine (condition_gives hr hd).bind fun condition e h₂ => ?_
  have he := h₂.1.ends hd
  refine (eat_gives .colon he).bind fun o f h₃ => ?_
  have hf := h₃.1.ends he
  cases o with
  | some colon => exact (alternativeIf_makes keyword condition colon).closes hf
  | none => exact (branches_ensures hr h₁.2 h₂.2 hf).imp fun _ _ hd => hd.2.2

theorem whileStatement_closes (hr : r.Shapes) : (whileStatement r).Closes := by
  refine .bind token_gives fun keyword => ?_
  refine .bind (condition_gives hr) fun condition => ?_
  refine .bind (eat_gives .colon) fun o => ?_
  cases o with
  | some colon => exact Makes.closes (.bind fun _ => .bind fun _ => .bind fun _ => .pure rfl)
  | none => exact .last hr.closes (fun _ => rfl) nofun

theorem forStatement_closes (hr : r.Shapes) : (forStatement r).Closes := by
  refine .bind token_gives fun keyword => ?_
  refine .bind (expect_gives _) fun left => ?_
  refine .bind (commaList_gives _ hr.expression) fun start => ?_
  refine .bind (expect_gives _) fun firstSemicolon => ?_
  refine .bind (commaList_gives _ hr.expression) fun condition => ?_
  refine .bind (expect_gives _) fun secondSemicolon => ?_
  refine .bind (commaList_gives _ hr.expression) fun step => ?_
  refine .bind (expect_gives _) fun right => ?_
  refine .bind (eat_gives .colon) fun o => ?_
  cases o with
  | some colon => exact Makes.closes (.bind fun _ => .bind fun _ => .bind fun _ => .pure rfl)
  | none => exact .last hr.closes (fun _ => rfl) nofun

theorem foreachStatement_closes (hr : r.Shapes) : (foreachStatement r).Closes := by
  refine .bind token_gives fun keyword => ?_
  refine .bind (expect_gives _) fun left => ?_
  refine .bind hr.expression fun subject => ?_
  refine .bind (expectKeyword_gives _) fun asKeyword => ?_
  refine .bind (foreachTargets_gives hr) fun targets => ?_
  refine .bind (expect_gives _) fun right => ?_
  refine .bind (eat_gives .colon) fun o => ?_
  cases o with
  | some colon => exact Makes.closes (.bind fun _ => .bind fun _ => .bind fun _ => .pure rfl)
  | none => exact .last hr.closes (fun _ => rfl) nofun

theorem declareStatement_closes (hr : r.Shapes) : (declareStatement r).Closes := by
  refine .bind token_gives fun keyword => ?_
  refine .bind (expect_gives _) fun left => ?_
  refine .bind (commaList_gives _ (constantAssignment_gives hr)) fun directives => ?_
  refine .bind (expect_gives _) fun right => .get fun c => ?_
  have stop : statementEnd.Closes := Makes.closes (.get fun c => by
    split
    · exact .leaf rfl
    · exact .expected)
  split
  · exact .last stop (fun _ => rfl) nofun
  · exact .last hr.closes (fun _ => rfl) nofun

theorem keywordStatements_closes (hr : r.Shapes) : ∀ s ∈ keywordStatements r, s.2.Closes := by
  simp only [keywordStatements, List.forall_mem_cons]
  exact ⟨ifStatement_closes hr, whileStatement_closes hr, doWhileStatement_makes.closes,
    forStatement_closes hr, foreachStatement_closes hr, switchStatement_makes.closes,
    (jumpStatement_makes rfl).closes, (jumpStatement_makes rfl).closes,
    (jumpStatement_makes rfl).closes, (listStatement_makes rfl _).closes,
    (listStatement_makes rfl _).closes, unsetStatement_makes.closes, throwStatement_makes.closes,
    tryStatement_makes.closes, gotoStatement_makes.closes, declareStatement_closes hr,
    namespaceStatement_makes.closes, useStatement_makes.closes, constantDeclaration_makes.closes,
    List.forall_mem_nil _⟩

theorem keywordStatement_closes (hr : r.Shapes) ⦃c : Cursor⦄ (hc : c.Ends) :
    (keywordStatement r).Ensures c fun o d => ∀ t ∈ o, t.ReachesOpen → d.seesBranch = false := by
  have found : ∀ {p : Production Tree} {d : Cursor}, d.Ends → p.Closes →
      (some <$> p).Ensures d fun o e => ∀ t ∈ o, t.ReachesOpen → e.seesBranch = false :=
    fun hd hp => .map ((hp hd).imp fun _ _ ht => by simpa using ht)
  refine .get ?_
  split
  · exact .pure nofun
  have hdeclaration := declaration_makes (r := r) (.node .plainList []) c
  refine Ensures.bind (fun o d hrun =>
    And.intro (declaration_gives hr attributes_nil hc o d hrun).1 (hdeclaration o d hrun)) ?_
  rintro o d ⟨hcd, ho⟩
  have hd := hcd.ends hc
  cases o with
  | some tree => exact .pure fun t ht hopen => absurd hopen.hasTail (by simp [ho t ht])
  | none =>
    dsimp only
    split
    · next hfind => exact found hd (keywordStatements_closes hr _ (List.mem_of_find?_eq_some hfind))
    split
    · exact found hd (listStatement_makes rfl _).closes
    split
    · exact found hd labelStatement_makes.closes
    · exact .pure nofun

theorem statement_closes (hr : r.Shapes) : (statement r).Closes := by
  have html : (leaf .inlineHtml).Closes := Makes.closes (.leaf rfl)
  refine .get fun c => ?_
  split
  · exact html
  · exact html
  · exact html
  · exact (listStatement_makes rfl _).closes
  · intro d hd
    refine Ensures.bind (fun o e hrun =>
      And.intro (keywordStatement_gives hr hd o e hrun).1 (keywordStatement_closes hr hd o e hrun)) ?_
    rintro o e ⟨hde, ho⟩
    cases o with
    | some tree => exact .pure (ho tree rfl)
    | none => exact plainStatement_makes.closes (hde.ends hd)
  · exact plainStatement_makes.closes

end Closes

end PhpSyntax.Grammar
