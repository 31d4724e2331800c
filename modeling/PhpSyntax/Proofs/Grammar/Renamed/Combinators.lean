import PhpSyntax.Proofs.Grammar.Renamed.Moves

namespace PhpSyntax.Grammar

inductive Complaint where
  | expected (what : Expectation)
  | unexpected (what : Expectation)

def Complaint.at (k : Complaint) (c : Cursor) : SyntaxError :=
  match k with
  | expected what => c.expectedError what
  | unexpected what => c.unexpectedError what

/-- From `c` on `p` does what `q` does among the renamed tokens: their results agree up to `g`, or
both complain in the same way about the same token. -/
def Mirrors (f : Renaming) {α β : Type} (g : α → β) (c : Cursor) (p : Production α)
    (q : Production β) : Prop :=
  (∃ a d, p.run c = .ok (a, d) ∧ q.run (c.rename f) = .ok (g a, d.rename f) ∧ c.Moves d) ∨
    ∃ k d, p.run c = .error (Complaint.at k d) ∧
      q.run (c.rename f) = .error (Complaint.at k (d.rename f)) ∧ c.Leads d

namespace Mirrors

variable {f : Renaming} {α β γ δ : Type} {g : α → β} {h : γ → δ} {c : Cursor}

theorem pure {a : α} {b : β} (hb : b = g a) :
    Mirrors f g c (Pure.pure a) (Pure.pure b) := by
  subst hb
  exact .inl ⟨a, c, rfl, rfl, .refl⟩

theorem complain {p : Production α} {q : Production β} (k : Complaint)
    (hp : p.run c = .error (k.at c)) (hq : q.run (c.rename f) = .error (k.at (c.rename f))) :
    Mirrors f g c p q :=
  .inr ⟨k, c, hp, hq, .refl⟩

theorem expected {what : Expectation} :
    Mirrors f g c (Production.expected what) (Production.expected what) :=
  complain (.expected what) rfl rfl

theorem unexpected {what : Expectation} :
    Mirrors f g c (Production.unexpected what) (Production.unexpected what) :=
  complain (.unexpected what) rfl rfl

/-- What follows may use how the first computation ended. -/
theorem bindOf {x : Production α} {y : Production β} {k : α → Production γ}
    {k' : β → Production δ} (hx : Mirrors f g c x y)
    (hk : ∀ a d, x.run c = .ok (a, d) → Mirrors f h d (k a) (k' (g a))) :
    Mirrors f h c (x >>= k) (y >>= k') := by
  simp only [Mirrors, StateT.run_bind]
  obtain ⟨a, d, hp, hq, hm⟩ | ⟨e, d, hp, hq, hl⟩ := hx
  · rw [hp, hq]
    obtain ⟨a', d', hp', hq', hm'⟩ | ⟨e, d', hp', hq', hl'⟩ := hk a d hp
    · exact .inl ⟨a', d', hp', hq', hm.trans hm'⟩
    · exact .inr ⟨e, d', hp', hq', hm.leads.trans hl'⟩
  · rw [hp, hq]
    exact .inr ⟨e, d, rfl, rfl, hl⟩

theorem bind {x : Production α} {y : Production β} {k : α → Production γ}
    {k' : β → Production δ} (hx : Mirrors f g c x y)
    (hk : ∀ a d, Mirrors f h d (k a) (k' (g a))) : Mirrors f h c (x >>= k) (y >>= k') :=
  hx.bindOf fun a d _ => hk a d

theorem map {x : Production α} {y : Production β} {k : α → γ} {k' : β → δ}
    (hx : Mirrors f g c x y) (hk : ∀ a, k' (g a) = h (k a)) :
    Mirrors f h c (k <$> x) (k' <$> y) := by
  rw [← bind_pure_comp, ← bind_pure_comp]
  exact hx.bind fun a d => .pure (hk a)

theorem get {k k' : Cursor → Production α} {g : α → α}
    (hk : Mirrors f g c (k c) (k' (c.rename f))) :
    Mirrors f g c (MonadState.get >>= k) (MonadState.get >>= k') :=
  hk

theorem ite {b b' : Prop} [Decidable b] [Decidable b'] {x y : Production α} {x' y' : Production β}
    (hb : b' ↔ b) (hx : b → Mirrors f g c x x') (hy : ¬ b → Mirrors f g c y y') :
    Mirrors f g c (if b then x else y) (if b' then x' else y') := by
  by_cases h : b
  · rw [if_pos h, if_pos (hb.mpr h)]
    exact hx h
  · rw [if_neg h, if_neg (mt hb.mp h)]
    exact hy h

/-- A token may be read where it is no infix operator, or where what follows can only succeed if
no other one stands after it. -/
theorem leafOf {k : Kind} {p : Tree → Production α} {q : Tree → Production β}
    (hp : Mirrors f g c.next (p (.leaf k c.current)) (q (.leaf k (f.apply c.current))))
    (hc : ∀ a d, (p (.leaf k c.current)).run c.next = .ok (a, d) → c.seesInfix = true →
      c.next.seesInfix = false) :
    Mirrors f g c (Production.leaf k >>= p) (Production.leaf k >>= q) := by
  have hq : (Production.leaf k >>= q).run (c.rename f) =
      (q (.leaf k (f.apply c.current))).run (c.next.rename f) := by
    rw [← Cursor.next_rename]
    rfl
  obtain ⟨a, d, hrun, hrun', hm⟩ | ⟨e, d, hrun, hrun', hl⟩ := hp
  · exact .inl ⟨a, d, hrun, hq.trans hrun', .trans (.next .refl (hc a d hrun)) hm⟩
  · exact .inr ⟨e, d, hrun, hq.trans hrun', Cursor.leads_next.trans hl⟩

theorem leaf {k : Kind} {p : Tree → Production α} {q : Tree → Production β}
    (hc : c.seesInfix = false)
    (hp : Mirrors f g c.next (p (.leaf k c.current)) (q (.leaf k (f.apply c.current)))) :
    Mirrors f g c (Production.leaf k >>= p) (Production.leaf k >>= q) :=
  leafOf hp fun _ _ _ hs => absurd (hc.symm.trans hs) Bool.false_ne_true

end Mirrors

def Production.Mirrored (f : Renaming) (p : Production Tree) : Prop :=
  ∀ c, Mirrors f (Tree.rename f) c p p

namespace Production

variable {f : Renaming} {c : Cursor}

theorem leaf_mirrors {k : Kind} (hc : c.seesInfix = false) :
    Mirrors f (Tree.rename f) c (leaf k) (leaf k) := by
  rw [← bind_pure (leaf k)]
  exact .leaf hc (.pure rfl)

theorem token_mirrors (hc : c.seesInfix = false) : Mirrors f (Tree.rename f) c token token :=
  leaf_mirrors hc

theorem leafIf_mirrored {accept : Cursor → Bool} {k : Kind} {what : Expectation}
    (ha : ∀ c, accept (c.rename f) = accept c) (hi : ∀ c, accept c = true → c.seesInfix = false) :
    (leafIf accept k what).Mirrored f :=
  fun c => .get (.ite (by rw [ha]) (fun hc => leaf_mirrors (hi c hc)) fun _ => .expected)

theorem eatIf_mirrors {accept : Cursor → Bool} (ha : ∀ c, accept (c.rename f) = accept c)
    (hi : accept c = true → c.seesInfix = false) :
    Mirrors f (Option.map (Tree.rename f)) c (eatIf accept) (eatIf accept) :=
  .get (.ite (by rw [ha]) (fun hc => (token_mirrors (hi hc)).map fun _ => rfl) fun _ => .pure rfl)

theorem eat_mirrors (p : Punctuator) (hp : infixOperators.contains p = false) :
    Mirrors f (Option.map (Tree.rename f)) c (eat p) (eat p) :=
  eatIf_mirrors (by simp) fun hc => Cursor.not_infix_of_sees hc hp

theorem eatKeyword_mirrors (k : Keyword) :
    Mirrors f (Option.map (Tree.rename f)) c (eatKeyword k) (eatKeyword k) :=
  eatIf_mirrors (by simp) Cursor.not_infix_of_seesKeyword

theorem expect_mirrors {p : Punctuator} (hp : infixOperators.contains p = false) :
    Mirrors f (Tree.rename f) c (expect p) (expect p) :=
  leafIf_mirrored (by simp) (fun _ hc => Cursor.not_infix_of_sees hc hp) c

theorem expectKeyword_mirrors (k : Keyword) :
    Mirrors f (Tree.rename f) c (expectKeyword k) (expectKeyword k) :=
  leafIf_mirrored (by simp) (fun _ => Cursor.not_infix_of_seesKeyword) c

theorem variableName_mirrored : variableName.Mirrored f :=
  leafIf_mirrored (by simp) fun _ hc => Cursor.not_infix_of_seesKind hc (by decide)

theorem identifier_mirrored : identifier.Mirrored f :=
  leafIf_mirrored (by simp) fun _ hc => Cursor.not_infix_of_seesKind hc (by decide)

theorem statementEnd_mirrored : statementEnd.Mirrored f :=
  leafIf_mirrored (by simp) fun _ => Cursor.not_infix_of_seesStatementEnd

/-- The text of a token that is no identifier has no influence. -/
theorem name_mirrored : name.Mirrored f := by
  refine fun c => .get (.get (.ite (by simp) (fun hc => ?_) fun _ => .expected))
  have hid : c.current.kind = .identifier := by simpa [Cursor.seesKind] using hc
  rw [Cursor.current_rename, f.isQualified_apply _ hid]
  exact leaf_mirrors (Cursor.not_infix_of_seesKind hc (by decide))

theorem optional_mirrors {accept : Cursor → Bool} {p : Production Tree}
    (ha : ∀ c, accept (c.rename f) = accept c)
    (hp : accept c = true → Mirrors f (Tree.rename f) c p p) :
    Mirrors f (Option.map (Tree.rename f)) c (Production.optional accept p)
      (Production.optional accept p) :=
  .get (.ite (by rw [ha]) (fun hc => (hp hc).map fun _ => rfl) fun _ => .pure rfl)

theorem introduced_mirrors {opening : Production (Option Tree)} {body : Production Tree}
    (ho : Mirrors f (Option.map (Tree.rename f)) c opening opening) (hb : body.Mirrored f) :
    Mirrors f (Prod.map (Option.map (Tree.rename f)) (Option.map (Tree.rename f))) c
      (introduced opening body) (introduced opening body) := by
  refine ho.bind fun o d => ?_
  cases o with
  | none => exact .pure rfl
  | some t => exact (hb d).bind fun t' d' => .pure rfl

section Gather

variable {more : Cursor → Bool} {item : Production Slots}

theorem gather_mirrors (hm : ∀ c, more (c.rename f) = more c)
    (hi : ∀ c, more c = true → Mirrors f (Tree.renameSlots f) c item item) :
    Mirrors f (Tree.renameSlots f) c (gather more item) (gather more item) := by
  have upTo : ∀ rounds c, Mirrors f (Tree.renameSlots f) c (gatherUpTo more item rounds)
      (gatherUpTo more item rounds) := by
    intro rounds
    induction rounds with
    | zero => exact fun c => .pure rfl
    | succ rounds ih =>
      refine fun c => .get (.ite (by rw [hm]) (fun hc => ?_) fun _ => .pure rfl)
      refine (hi c hc).bind fun slots d => ?_
      exact (ih d).bind fun rest e => .pure (by simp)
  refine .get ?_
  rw [Cursor.remaining_rename]
  exact upTo _ c

theorem gatherTrees_mirrors {tree : Production Tree} (hm : ∀ c, more (c.rename f) = more c)
    (ht : ∀ c, more c = true → Mirrors f (Tree.rename f) c tree tree) :
    Mirrors f (Tree.renameSlots f) c (gatherTrees more tree) (gatherTrees more tree) :=
  gather_mirrors hm fun c hc => (ht c hc).bind fun t d => .pure (by simp)

theorem gatherPairs_mirrors {element : Production Tree} (hm : ∀ c, more (c.rename f) = more c)
    (hi : ∀ c, more c = true → c.seesInfix = false) (he : element.Mirrored f) :
    Mirrors f (Tree.renameSlots f) c (gatherPairs more element) (gatherPairs more element) := by
  refine gather_mirrors hm fun c hc => ?_
  refine (token_mirrors (hi c hc)).bind fun separator d => ?_
  exact (he d).bind fun t e => .pure (by simp)

end Gather

theorem chain_mirrors {step : Tree → Production (Option Tree)} {tree : Tree}
    (hs : ∀ tree c, Mirrors f (Option.map (Tree.rename f)) c (step tree) (step (tree.rename f))) :
    Mirrors f (Tree.rename f) c (chain step tree) (chain step (tree.rename f)) := by
  refine .get ?_
  rw [Cursor.remaining_rename]
  generalize c.remaining = rounds
  induction rounds generalizing tree c with
  | zero => exact .pure rfl
  | succ rounds ih =>
    refine (hs tree c).bind fun o d => ?_
    cases o with
    | none => exact .pure rfl
    | some larger => exact ih

section Lists

variable {element : Production Tree}

theorem separatedList_mirrored (close : Punctuator) (allowEmpty : Bool)
    (he : element.Mirrored f) : (separatedList close allowEmpty element).Mirrored f := by
  have upTo : ∀ rounds c, Mirrors f (Tree.renameSlots f) c
      (commaSlots close allowEmpty element rounds)
      (commaSlots close allowEmpty element rounds) := by
    intro rounds
    induction rounds with
    | zero => exact fun c => .pure rfl
    | succ rounds ih =>
      refine fun c => .get (.ite (by simp) (fun _ => .pure rfl) fun _ => ?_)
      refine .ite (by simp) (fun hc => ?_) fun _ => ?_
      · have hcomma := (Bool.and_eq_true_iff.mp hc).2
        refine (token_mirrors (Cursor.not_infix_of_sees hcomma rfl)).bind fun comma d => ?_
        exact (ih d).bind fun slots e => .pure (by simp)
      · refine (he c).bind fun tree d => ?_
        refine (eat_mirrors .comma rfl).bind fun o e => ?_
        cases o with
        | none => exact .pure (by simp)
        | some comma => exact (ih e).bind fun slots e' => .pure (by simp)
  intro c
  refine .get ?_
  rw [Cursor.remaining_rename]
  exact (upTo _ c).bind fun slots d => .pure rfl

theorem commaList_mirrored (close : Punctuator) (he : element.Mirrored f) :
    (commaList close element).Mirrored f :=
  separatedList_mirrored close false he

theorem delimited_mirrored (separator : Punctuator) (he : element.Mirrored f)
    (hs : infixOperators.contains separator = false) :
    (delimited separator element).Mirrored f := by
  refine fun c => (he c).bind fun first d => ?_
  refine (gatherPairs_mirrors (by simp) (fun _ hc => Cursor.not_infix_of_sees hc hs) he).bind
    fun rest e => ?_
  exact .pure (by simp)

theorem nameList_mirrored : nameList.Mirrored f :=
  delimited_mirrored .comma name_mirrored rfl

theorem modifiers_mirrored (allowed : List Keyword) : (modifiers allowed).Mirrored f :=
  fun _ => (gatherTrees_mirrors (by simp) fun _ hc =>
    token_mirrors (Cursor.not_infix_of_seesAnyKeyword hc)).bind fun _ _ => .pure rfl

end Lists

end Production

/-- The productions inside others build the same trees among the renamed tokens. A computed
variable name is only asked for where no infix operator stands, and no operand starts at one. -/
structure Nested.Mirrored (f : Renaming) (r : Nested) : Prop where
  statement : r.statement.Mirrored f
  binary : ∀ level, (r.binary level).Mirrored f
  operand : ∀ level c, (r.binary level).Ensures c fun _ _ => c.seesInfix = false
  unary : r.unary.Mirrored f
  access : r.access.Mirrored f
  dollarVariable : ∀ c, c.seesInfix = false →
    Mirrors f (Tree.rename f) c r.dollarVariable r.dollarVariable
  typeAtom : r.typeAtom.Mirrored f

namespace Nested

open Production

variable {f : Renaming} {r : Nested}

theorem Mirrored.expression (hr : r.Mirrored f) : r.expression.Mirrored f :=
  hr.binary 0

theorem statements_mirrored (hr : r.Mirrored f) {stop : Cursor → Bool}
    (hs : ∀ c, stop (c.rename f) = stop c) : (r.statements stop).Mirrored f := by
  refine fun c => (gatherTrees_mirrors ?_ fun d _ => hr.statement d).bind fun slots d => .pure rfl
  simp [hs]

theorem block_mirrored (hr : r.Mirrored f) : r.block.Mirrored f := by
  refine fun c => (expect_mirrors (by decide)).bind fun left c₁ => ?_
  refine (statements_mirrored hr (by simp) c₁).bind fun body c₂ => ?_
  exact (expect_mirrors (by decide)).bind fun right c₃ => .pure (by simp)

theorem parenthesised_mirrored (hr : r.Mirrored f) : r.parenthesised.Mirrored f := by
  refine fun c => (expect_mirrors (by decide)).bind fun left c₁ => ?_
  refine (hr.expression c₁).bind fun inner c₂ => ?_
  exact (expect_mirrors (by decide)).bind fun right c₃ => .pure (by simp)

end Nested

end PhpSyntax.Grammar
