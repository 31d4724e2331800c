import PhpSyntax.Proofs.Grammar.Progress.Runs
import PhpSyntax.Proofs.Grammar.Shape.Nodes

namespace PhpSyntax

namespace Tree

def Shaped (tree : Tree) : Prop :=
  ∀ n ∈ tree.preorder, n.Regular

def SlotShaped (slot : Option Tree) : Prop :=
  ∀ t ∈ slot, t.Shaped

def SlotsShaped (slots : List (Option Tree)) : Prop :=
  ∀ slot ∈ slots, SlotShaped slot

section Shaped

variable {k : Kind} {t : Tree} {tok : Token} {slot : Option Tree} {cs ds : List (Option Tree)}
  {es : List Tree} {P : Tree → Prop}

@[simp]
theorem slotShaped_none : SlotShaped none :=
  nofun

@[simp]
theorem slotShaped_some : SlotShaped (some t) ↔ t.Shaped := by
  simp [SlotShaped]

@[simp]
theorem slotsShaped_nil : SlotsShaped [] :=
  nofun

@[simp]
theorem slotsShaped_cons : SlotsShaped (slot :: cs) ↔ SlotShaped slot ∧ SlotsShaped cs :=
  List.forall_mem_cons

@[simp]
theorem slotsShaped_append : SlotsShaped (cs ++ ds) ↔ SlotsShaped cs ∧ SlotsShaped ds :=
  List.forall_mem_append

theorem slotsShaped_map_some (h : ∀ e ∈ es, e.Shaped) : SlotsShaped (es.map some) := by
  simpa [SlotsShaped] using h

theorem Shaped.node (h : (Tree.node k cs).Regular) (hcs : SlotsShaped cs) :
    (Tree.node k cs).Shaped := by
  intro n hn
  rw [preorder_node, List.mem_cons, List.mem_flatMap] at hn
  obtain rfl | ⟨t, ht, hn⟩ := hn
  · exact h
  · obtain ⟨slot, hslot, rfl⟩ := List.mem_filterMap.mp ht
    exact hcs _ hslot t rfl n hn

theorem Shaped.plain (h : k.isPlain = true) (hcs : SlotsShaped cs) : (Tree.node k cs).Shaped :=
  .node (regular_of_isPlain h) hcs

theorem Shaped.leaf (h : k.isPlain = true) : (Tree.leaf k tok).Shaped := by
  intro n hn
  obtain rfl : n = .leaf k tok := by simpa [preorder] using hn
  exact regular_of_isPlain h

@[simp]
theorem shaped_token : (Tree.leaf .token tok).Shaped :=
  .leaf rfl

structure IsOperand (t : Tree) : Prop where
  shaped : t.Shaped
  kind : t.kind.isOperator = false

theorem isOperator_of_isPlain (h : k.isPlain = true) : k.isOperator = false := by
  simp only [Kind.isPlain, Bool.not_eq_true', Bool.or_eq_false_iff] at h
  exact h.1.1

theorem IsOperand.plain (h : k.isPlain = true) (hcs : SlotsShaped cs) :
    (Tree.node k cs).IsOperand :=
  ⟨.plain h hcs, isOperator_of_isPlain h⟩

/-- A tree that can be the operand of an operator that stands before it. -/
structure IsTight (t : Tree) : Prop where
  shaped : t.Shaped
  kind : t.kind.isTight = true

theorem IsOperand.tight (h : t.IsOperand) : t.IsTight :=
  ⟨h.shaped, Kind.isTight_of_isOperator h.kind⟩

def IsWord (t : Tree) : Prop :=
  ∃ k tok, t = .leaf k tok ∧ k.isPlain = true

theorem IsWord.operand (h : t.IsWord) : t.IsOperand := by
  obtain ⟨k, tok, rfl, hk⟩ := h
  exact ⟨.leaf hk, isOperator_of_isPlain hk⟩

theorem IsWord.shaped (h : t.IsWord) : t.Shaped :=
  h.operand.shaped

structure ListOf (P : Tree → Prop) (list : Tree) : Prop where
  shaped : list.Shaped
  lists : ∃ es, list.Lists es ∧ ∀ e ∈ es, P e

def InRow (P : Tree → Prop) (slots : List (Option Tree)) : Prop :=
  ∃ es : List Tree, slots = es.map some ∧ ∀ e ∈ es, P e

theorem InRow.shaped (h : InRow P cs) (hP : ∀ t, P t → t.Shaped) : SlotsShaped cs := by
  obtain ⟨es, rfl, hes⟩ := h
  exact slotsShaped_map_some fun e he => hP e (hes e he)

theorem InRow.plainList (h : InRow P cs) (hP : ∀ t, P t → t.Shaped) :
    (Tree.node .plainList cs).Shaped :=
  .plain rfl (h.shaped hP)

def InPairs (P : Tree → Prop) (slots : List (Option Tree)) : Prop :=
  ∃ ps : List (Tree × Tree), slots = ps.flatMap (fun p => [some p.1, some p.2]) ∧
    ∀ p ∈ ps, p.1.Shaped ∧ P p.2

theorem evenItems_pairs (ps : List (Tree × Tree)) :
    evenItems (slot :: ps.flatMap fun p => [some p.1, some p.2]) = slot :: ps.map (some ·.2) := by
  induction ps generalizing slot with
  | nil => rfl
  | cons p ps ih => rw [List.flatMap_cons, List.cons_append, List.cons_append, List.nil_append,
      evenItems, ih, List.map_cons]

theorem InPairs.shaped (h : InPairs P cs) (hP : ∀ t, P t → t.Shaped) : SlotsShaped cs := by
  obtain ⟨ps, rfl, hps⟩ := h
  induction ps with
  | nil => exact slotsShaped_nil
  | cons p ps ih =>
    rw [List.forall_mem_cons] at hps
    simpa [hps.1.1, hP _ hps.1.2] using ih hps.2

theorem InPairs.listOf {first : Tree} (h : InPairs P cs) (hP : ∀ t, P t → t.Shaped)
    (hfirst : P first) : ListOf P (.node .separatedList (some first :: cs)) where
  shaped := .plain rfl (by simp [hP _ hfirst, h.shaped hP])
  lists := by
    obtain ⟨ps, rfl, hps⟩ := h
    refine ⟨first :: ps.map (·.2), ⟨rfl, ?_⟩, ?_⟩
    · rw [slots, evenItems_pairs, List.map_cons, List.map_map]
      rfl
    · rw [List.forall_mem_cons, List.forall_mem_map]
      exact ⟨hfirst, fun p hp => (hps p hp).2⟩

end Shaped

end Tree

namespace Grammar

open PhpSyntax.Tree (Shaped SlotShaped SlotsShaped IsOperand IsTight IsWord ListOf InRow InPairs)

namespace Production

variable {α β : Type}

/-- Where the end of the file lies ahead, `p` only goes forward, and its results satisfy `post`. -/
def Gives (p : Production α) (post : α → Prop) : Prop :=
  ∀ ⦃c⦄, c.Ends → p.Ensures c fun a d => c.Leads d ∧ post a

namespace Gives

variable {post : α → Prop} {mid : β → Prop}

theorem pure {a : α} (h : post a) : Gives (Pure.pure a) post :=
  fun _ _ => .pure ⟨.refl, h⟩

theorem bind {x : Production β} {f : β → Production α} (hx : x.Gives mid)
    (hf : ∀ b, mid b → (f b).Gives post) : (x >>= f).Gives post := by
  refine fun c hc => (hx hc).bind fun b d hd => ?_
  exact (hf b hd.2 (hd.1.ends hc)).imp fun _ _ he => ⟨hd.1.trans he.1, he.2⟩

theorem get {f : Cursor → Production α} (h : ∀ c, (f c).Gives post) :
    (MonadState.get >>= f).Gives post :=
  fun c hc => .get (h c hc)

theorem imp {post' : α → Prop} {x : Production α} (hx : x.Gives post)
    (h : ∀ a, post a → post' a) : x.Gives post' :=
  fun _ hc => (hx hc).imp fun a _ hd => ⟨hd.1, h a hd.2⟩

theorem map {x : Production β} {f : β → α} (hx : x.Gives fun b => post (f b)) :
    (f <$> x).Gives post := by
  rw [← bind_pure_comp]
  exact hx.bind fun _ => pure

theorem expected {what : Expectation} : (Production.expected what).Gives post :=
  fun _ _ => .expected

theorem unexpected {what : Expectation} : (Production.unexpected what).Gives post :=
  fun _ _ => .unexpected

end Gives

section Tokens

theorem leaf_yields (kind : Kind) : (leaf kind).Gives fun t => ∃ tok, t = .leaf kind tok := by
  rintro c - t d ⟨⟩
  exact ⟨Cursor.leads_next, _, rfl⟩

theorem leaf_gives {kind : Kind} (h : kind.isPlain = true) : (leaf kind).Gives IsWord :=
  (leaf_yields kind).imp fun _ ⟨tok, ht⟩ => ⟨kind, tok, ht, h⟩

theorem token_gives : token.Gives Shaped :=
  (leaf_gives rfl).imp fun _ => IsWord.shaped

theorem leafIf_gives (accept : Cursor → Bool) {kind : Kind} (what : Expectation)
    (h : kind.isPlain = true) : (leafIf accept kind what).Gives IsWord := by
  refine .get fun c => ?_
  split
  · exact leaf_gives h
  · exact .expected

theorem eatIf_gives (accept : Cursor → Bool) : (eatIf accept).Gives SlotShaped := by
  refine .get fun c => ?_
  split
  · exact .map (token_gives.imp fun _ => Tree.slotShaped_some.mpr)
  · exact .pure Tree.slotShaped_none

theorem eat_gives (p : Punctuator) : (eat p).Gives SlotShaped :=
  eatIf_gives _

theorem eatKeyword_gives (k : Keyword) : (eatKeyword k).Gives SlotShaped :=
  eatIf_gives _

theorem expect_gives (p : Punctuator) : (expect p).Gives Shaped :=
  (leafIf_gives _ _ rfl).imp fun _ => IsWord.shaped

theorem expect_yields (p : Punctuator) :
    (expect p).Gives fun t => ∃ tok, t = .leaf .token tok ∧ tok.isPunctuator p = true := by
  intro c hc
  refine .get ?_
  split
  · next hp =>
    rintro t d ⟨⟩
    exact ⟨Cursor.leads_next, _, rfl, hp⟩
  · exact .expected

theorem expectKeyword_gives (k : Keyword) : (expectKeyword k).Gives Shaped :=
  (leafIf_gives _ _ rfl).imp fun _ => IsWord.shaped

theorem statementEnd_gives : statementEnd.Gives Shaped :=
  (leafIf_gives _ _ rfl).imp fun _ => IsWord.shaped

theorem identifier_gives : identifier.Gives IsWord :=
  leafIf_gives _ _ rfl

theorem name_gives : name.Gives IsWord := by
  refine .get fun c => leafIf_gives _ _ ?_
  split <;> rfl

theorem variableName_yields :
    variableName.Gives fun t => ∃ tok, t = .leaf .variableIdentifier tok := by
  refine .get fun c => ?_
  split
  · exact leaf_yields _
  · exact .expected

theorem variableName_gives : variableName.Gives IsWord :=
  leafIf_gives _ _ rfl

end Tokens

section Rules

variable {P : Tree → Prop} {p : Production Tree} {more : Cursor → Bool}

theorem optional_yields (accept : Cursor → Bool) (hp : p.Gives P) :
    (Production.optional accept p).Gives fun o => ∀ t ∈ o, P t := by
  refine .get fun c => ?_
  split
  · exact .map (hp.imp fun t ht => by simpa using ht)
  · exact .pure nofun

theorem optional_gives (accept : Cursor → Bool) (hp : p.Gives Shaped) :
    (Production.optional accept p).Gives SlotShaped :=
  optional_yields accept hp

theorem introduced_gives {intro : Production (Option Tree)} (hi : intro.Gives SlotShaped)
    (hp : p.Gives Shaped) :
    (introduced intro p).Gives fun q => SlotShaped q.1 ∧ SlotShaped q.2 := by
  refine hi.bind fun o ho => ?_
  cases o with
  | none => exact .pure ⟨Tree.slotShaped_none, Tree.slotShaped_none⟩
  | some t => exact hp.bind fun t' ht => .pure ⟨ho, Tree.slotShaped_some.mpr ht⟩

theorem gatherUpTo_gives {item : Production Slots} {P : Slots → Prop} (hnil : P [])
    (happend : ∀ a b, P a → P b → P (a ++ b)) (hi : item.Gives P) (rounds : Nat) :
    (gatherUpTo more item rounds).Gives P := by
  induction rounds with
  | zero => exact .pure hnil
  | succ rounds ih =>
    refine .get fun c => ?_
    split
    · refine hi.bind fun slots hslots => ?_
      exact ih.bind fun rest hrest => .pure (happend _ _ hslots hrest)
    · exact .pure hnil

theorem gatherTrees_gives (hp : p.Gives P) : (gatherTrees more p).Gives (InRow P) := by
  refine .get fun c => gatherUpTo_gives ⟨[], rfl, nofun⟩ ?_ ?_ _
  · rintro _ _ ⟨es, rfl, hes⟩ ⟨es', rfl, hes'⟩
    exact ⟨es ++ es', by rw [List.map_append], List.forall_mem_append.mpr ⟨hes, hes'⟩⟩
  · exact hp.bind fun t ht => .pure ⟨[t], rfl, by simpa using ht⟩

theorem plainList_gives (hp : p.Gives Shaped) :
    (gatherTrees more p).Gives fun slots => Shaped (.node .plainList slots) :=
  (gatherTrees_gives hp).imp fun _ h => h.plainList fun _ => id

theorem gatherPairs_gives (hp : p.Gives P) : (gatherPairs more p).Gives (InPairs P) := by
  refine .get fun c => gatherUpTo_gives ⟨[], rfl, nofun⟩ ?_ ?_ _
  · rintro _ _ ⟨ps, rfl, hps⟩ ⟨ps', rfl, hps'⟩
    exact ⟨ps ++ ps', by rw [List.flatMap_append], List.forall_mem_append.mpr ⟨hps, hps'⟩⟩
  · refine token_gives.bind fun s hs => hp.bind fun t ht => .pure ?_
    exact ⟨[(s, t)], rfl, by simpa using ⟨hs, ht⟩⟩

theorem delimited_gives (separator : Punctuator) (hP : ∀ t, P t → t.Shaped) (hp : p.Gives P) :
    (delimited separator p).Gives (ListOf P) := by
  refine hp.bind fun first hfirst => ?_
  exact (gatherPairs_gives hp).bind fun rest hrest => .pure (hrest.listOf hP hfirst)

/-- The slots of a list with commas. Only where it is allowed are elements missing. -/
theorem commaSlots_gives (close : Punctuator) (allowEmpty : Bool) (hP : ∀ t, P t → t.Shaped)
    (hp : p.Gives P) (rounds : Nat) :
    (commaSlots close allowEmpty p rounds).Gives fun slots => SlotsShaped slots ∧
      (allowEmpty = false → ∃ es : List Tree, Tree.evenItems slots = es.map some ∧ ∀ e ∈ es, P e) := by
  induction rounds with
  | zero => exact .pure ⟨Tree.slotsShaped_nil, fun _ => ⟨[], rfl, nofun⟩⟩
  | succ rounds ih =>
    refine .get fun c => ?_
    split
    · exact .pure ⟨Tree.slotsShaped_nil, fun _ => ⟨[], rfl, nofun⟩⟩
    split
    · next hc =>
      refine token_gives.bind fun comma hcomma => ih.bind fun rest hrest => .pure ⟨?_, ?_⟩
      · simp [hcomma, hrest.1]
      · rintro rfl
        simp at hc
    · refine hp.bind fun t ht => (eat_gives .comma).bind fun o ho => ?_
      cases o with
      | none => exact .pure ⟨by simp [hP t ht], fun _ => ⟨[t], rfl, by simpa using ht⟩⟩
      | some comma =>
        refine ih.bind fun rest hrest => .pure ⟨by simpa [hP t ht, hrest.1] using ho, fun he => ?_⟩
        obtain ⟨es, hes, hall⟩ := hrest.2 he
        exact ⟨t :: es, by rw [Tree.evenItems, hes, List.map_cons],
          List.forall_mem_cons.mpr ⟨ht, hall⟩⟩

theorem separatedList_gives (close : Punctuator) (allowEmpty : Bool) (hp : p.Gives Shaped) :
    (separatedList close allowEmpty p).Gives Shaped := by
  refine .get fun c => ?_
  refine (commaSlots_gives close allowEmpty (fun _ => id) hp _).bind fun slots hslots => ?_
  exact .pure (.plain rfl hslots.1)

theorem commaList_yields (close : Punctuator) (hP : ∀ t, P t → t.Shaped) (hp : p.Gives P) :
    (commaList close p).Gives (ListOf P) := by
  refine .get fun c => ?_
  refine (commaSlots_gives close false hP hp _).bind fun slots hslots => .pure ?_
  obtain ⟨es, hes, hall⟩ := hslots.2 rfl
  exact ⟨.plain rfl hslots.1, es, ⟨rfl, hes⟩, hall⟩

theorem commaList_gives (close : Punctuator) (hp : p.Gives Shaped) :
    (commaList close p).Gives Shaped :=
  separatedList_gives close false hp

theorem nameList_gives : nameList.Gives Shaped :=
  (delimited_gives .comma (fun _ => IsWord.shaped) name_gives).imp fun _ h => h.shaped

theorem modifiers_gives (allowed : List Keyword) : (modifiers allowed).Gives Shaped :=
  (plainList_gives token_gives).bind fun _ h => .pure h

/-- Trees that were read one after the other as long as `more` held. Of each tree and the place
after it, `Q` is true. -/
inductive Rounds (more : Cursor → Bool) (Q : Tree → Cursor → Prop) :
    Cursor → List Tree → Cursor → Prop where
  | stop {c : Cursor} (h : more c = false) : Rounds more Q c [] c
  | round {c d e : Cursor} {t : Tree} {ts : List Tree} (hm : more c = true) (ht : Q t d)
    (hts : Rounds more Q d ts e) : Rounds more Q c (t :: ts) e

section Rounds

variable {Q : Tree → Cursor → Prop} {c d : Cursor} {t : Tree} {ts front back : List Tree}

theorem Rounds.stops (h : Rounds more Q c ts d) : more d = false := by
  induction h with
  | stop h => exact h
  | round _ _ _ ih => exact ih

/-- Another round follows, or the loop ends here. -/
theorem Rounds.more_or (h : Rounds more Q c ts d) : more c = true ∨ ts = [] ∧ c = d := by
  cases h with
  | stop _ => exact .inr ⟨rfl, rfl⟩
  | round hm _ _ => exact .inl hm

theorem Rounds.split (h : Rounds more Q c (front ++ t :: back) d) :
    ∃ e, Q t e ∧ Rounds more Q e back d := by
  induction front generalizing c with
  | nil =>
    cases h with
    | round _ ht hts => exact ⟨_, ht, hts⟩
  | cons _ _ ih =>
    cases h with
    | round _ _ hts => exact ih hts

theorem treesUpTo_rounds
    (hp : ∀ ⦃c⦄, c.Ends → more c = true → p.Ensures c fun t d => c.Precedes d ∧ Q t d)
    (rounds : Nat) {c : Cursor} (hc : c.Ends) (hle : c.remaining ≤ rounds) :
    (gatherUpTo more (do return [some (← p)]) rounds).Ensures c fun slots d =>
      c.Leads d ∧ ∃ ts : List Tree, slots = ts.map some ∧ Rounds more Q c ts d := by
  induction rounds generalizing c with
  | zero => exact absurd hle (by simp [Cursor.remaining])
  | succ rounds ih =>
    refine .get ?_
    split
    · next hm =>
      have hround : (do return [some (← p)] : Production Slots).Ensures c fun slots d =>
          ∃ t, slots = [some t] ∧ c.Precedes d ∧ Q t d :=
        (hp hc hm).bind fun t d hd => .pure ⟨t, rfl, hd⟩
      refine hround.bind fun slots d hd => ?_
      obtain ⟨t, rfl, hcd, ht⟩ := hd
      have hfewer := hcd.fewer
      refine (ih (hcd.leads.ends hc) (by omega)).bind fun rest e he => ?_
      obtain ⟨hde, ts, rfl, hts⟩ := he
      exact .pure ⟨hcd.leads.trans hde, t :: ts, rfl, .round hm ht hts⟩
    · next hm => exact .pure ⟨.refl, [], rfl, .stop (by simpa using hm)⟩

/-- A loop whose rounds read tokens goes on as long as `more` holds. -/
theorem gatherTrees_rounds
    (hp : ∀ ⦃c⦄, c.Ends → more c = true → p.Ensures c fun t d => c.Precedes d ∧ Q t d)
    (hc : c.Ends) :
    (gatherTrees more p).Ensures c fun slots d =>
      c.Leads d ∧ ∃ ts : List Tree, slots = ts.map some ∧ Rounds more Q c ts d :=
  .get (treesUpTo_rounds hp _ hc (Nat.le_refl _))

end Rounds

variable {step : Tree → Production (Option Tree)} {tree : Tree}

/-- What each extension keeps. -/
theorem chainUpTo_gives (hs : ∀ t, P t → (step t).Gives fun o => ∀ larger ∈ o, P larger)
    (rounds : Nat) (h : P tree) : (chainUpTo step rounds tree).Gives P := by
  induction rounds generalizing tree with
  | zero => exact .pure h
  | succ rounds ih =>
    refine (hs tree h).bind fun o ho => ?_
    cases o with
    | none => exact .pure h
    | some larger => exact ih (ho larger rfl)

theorem chain_gives (hs : ∀ t, P t → (step t).Gives fun o => ∀ larger ∈ o, P larger)
    (h : P tree) : (chain step tree).Gives P :=
  .get fun _ => chainUpTo_gives hs _ h

/-- Where each extension reads a token, the chain only ends where `step` has none. -/
theorem chainUpTo_ends {I post : Tree → Cursor → Prop}
    (hs : ∀ ⦃t c⦄, c.Ends → I t c → (step t).Ensures c fun o d =>
      match o with
      | some larger => c.Precedes d ∧ I larger d
      | none => c.Leads d ∧ post t d)
    (rounds : Nat) {c : Cursor} (hc : c.Ends) (hle : c.remaining ≤ rounds) (h : I tree c) :
    (chainUpTo step rounds tree).Ensures c fun t d => c.Leads d ∧ post t d := by
  induction rounds generalizing tree c with
  | zero => exact absurd hle (by simp [Cursor.remaining])
  | succ rounds ih =>
    refine (hs hc h).bind fun o d hd => ?_
    cases o with
    | none => exact .pure hd
    | some larger =>
      have hfewer := hd.1.fewer
      refine (ih (hd.1.leads.ends hc) (by omega) hd.2).imp fun _ _ he => ?_
      exact ⟨hd.1.leads.trans he.1, he.2⟩

end Rules

end Production

/-- The operator here, if there is one, has a level below this one. -/
def Cursor.StopsBefore (c : Cursor) (level : Nat) : Prop :=
  ∀ kind l, c.operator? = some (kind, l) → l < level

/-- Where the end of the file lies ahead, `p` reads an expression whose operators have at least this
level, up to an operator that has not. -/
def Production.BindsAt (p : Production Tree) (level : Nat) : Prop :=
  ∀ ⦃c⦄, c.Ends → p.Ensures c fun t d =>
    c.Leads d ∧ t.Shaped ∧ t.BindsFrom level ∧ d.StopsBefore level

def Cursor.seesBranch (c : Cursor) : Bool :=
  c.seesKeyword .kwElseif || c.seesKeyword .kwElse

/-- Where the end of the file lies ahead, `p` reads a statement, and after one that ends with an
open condition no further branch follows. -/
def Production.Closes (p : Production Tree) : Prop :=
  ∀ ⦃c⦄, c.Ends → p.Ensures c fun t d => t.ReachesOpen → d.seesBranch = false

structure Nested.Shapes (r : Nested) : Prop where
  statement : r.statement.Gives Shaped
  closes : r.statement.Closes
  binary : ∀ level, (r.binary level).BindsAt level
  unary : r.unary.Gives IsTight
  access : r.access.Gives IsOperand
  dollarVariable : r.dollarVariable.Gives Shaped
  typeAtom : r.typeAtom.Gives Shaped

namespace Nested

open Production

variable {r : Nested}

theorem Shapes.operand (hr : r.Shapes) (level : Nat) :
    (r.binary level).Gives fun t => t.Shaped ∧ t.BindsFrom level :=
  fun _ hc => (hr.binary level hc).imp fun _ _ hd => ⟨hd.1, hd.2.1, hd.2.2.1⟩

theorem Shapes.branch (hr : r.Shapes) ⦃c : Cursor⦄ (hc : c.Ends) :
    r.statement.Ensures c fun t d =>
      c.Leads d ∧ t.Shaped ∧ (t.ReachesOpen → d.seesBranch = false) :=
  fun t d hrun =>
    have h := hr.statement hc t d hrun
    ⟨h.1, h.2, hr.closes hc t d hrun⟩

theorem Shapes.expression (hr : r.Shapes) : r.expression.Gives Shaped :=
  (hr.operand 0).imp fun _ h => h.1

theorem statements_gives (hr : r.Shapes) (stop : Cursor → Bool) :
    (r.statements stop).Gives Shaped :=
  (plainList_gives hr.statement).bind fun _ h => .pure h

theorem block_gives (hr : r.Shapes) : r.block.Gives fun t => t.Shaped ∧ t.kind = .block := by
  refine (expect_gives _).bind fun left h₁ => ?_
  refine (statements_gives hr _).bind fun body h₂ => ?_
  refine (expect_gives _).bind fun right h₃ => ?_
  exact .pure ⟨.plain rfl (by simp [h₁, h₂, h₃]), rfl⟩

theorem parenthesised_gives (hr : r.Shapes) : r.parenthesised.Gives IsOperand := by
  refine (expect_gives _).bind fun left h₁ => ?_
  refine hr.expression.bind fun inner h₂ => ?_
  refine (expect_gives _).bind fun right h₃ => ?_
  exact .pure (.plain rfl (by simp [h₁, h₂, h₃]))

end Nested

end Grammar

end PhpSyntax
