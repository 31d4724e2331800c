import PhpSyntax.Proofs.Grammar.Combinators
import PhpSyntax.Proofs.Grammar.Progress.Runs

namespace PhpSyntax.Grammar

variable {n : Nat}

theorem Reads.leads {c d : Cursor} {ts : List Tree} (h : Reads c ts d) : c.Leads d :=
  ⟨_, h.stream_eq, h.inside⟩

theorem Took.precedes {c d : Cursor} {t : Tree} (h : Took c [] t d) : c.Precedes d where
  leads := h.reads.leads
  fewer := by
    have hlen := congrArg List.length h.reads.stream_eq
    have hpos := List.length_pos_iff.mpr h.consumed
    simp only [Cursor.stream, List.nil_append, List.flatMap_singleton, List.length_append,
      List.length_cons] at hlen
    simp only [Cursor.remaining]
    omega

namespace Production

theorem takes_of_took {p : Production Tree}
    (h : ∀ ⦃c⦄, Reads c [] c → p.Ensures c (Took c [])) : Takes n p p :=
  fun _ hc => .self ((h (.refl hc.ends)).imp fun _ _ ht => ht.precedes)

theorem Parses.takes {p : Production Tree} (hp : p.Parses) : Takes n p p :=
  takes_of_took fun _ hc => (hp hc).imp fun _ _ ht => ht.toTook

theorem leaf_keeps (kind : Kind) : Keeps n (leaf kind) (leaf kind) :=
  Opens.single.keeps

theorem expect_takes (p : Punctuator) : Takes n (expect p) (expect p) :=
  takes_of_took fun _ => expect_took p

theorem expectKeyword_takes (k : Keyword) : Takes n (expectKeyword k) (expectKeyword k) :=
  takes_of_took fun _ => expectKeyword_took k

theorem statementEnd_takes : Takes n statementEnd statementEnd :=
  takes_of_took fun _ => statementEnd_took

theorem eatIf_keeps (accept : Cursor → Bool) : Keeps n (eatIf accept) (eatIf accept) :=
  fun _ hc => .get (.ite (fun _ => (leaf_keeps .token).map some hc) fun _ => .pure .refl)

theorem eat_keeps (p : Punctuator) : Keeps n (eat p) (eat p) :=
  eatIf_keeps _

theorem eatKeyword_keeps (k : Keyword) : Keeps n (eatKeyword k) (eatKeyword k) :=
  eatIf_keeps _

theorem optional_keeps (accept : Cursor → Bool) {p q : Production Tree} (h : Keeps n p q) :
    Keeps n (Production.optional accept p) (Production.optional accept q) :=
  fun _ hc => .get (.ite (fun _ => h.map some hc) fun _ => .pure .refl)

theorem introduced_keeps {opening : Production (Option Tree)} {p q : Production Tree}
    (ho : Keeps n opening opening) (h : Keeps n p q) :
    Keeps n (introduced opening p) (introduced opening q) := by
  refine ho.bind fun o => ?_
  cases o with
  | none => exact .pure _
  | some t => exact h.bind fun t' => .pure _

section Gather

variable {more : Cursor → Bool}

/-- A loop whose rounds read tokens needs no more rounds than there are tokens. -/
theorem gatherUpTo_keeps {item item' : Production Slots}
    (hi : ∀ ⦃c⦄, c.Fits n → more c = true → Agrees item item' c fun _ => c.Precedes)
    {rounds rounds' : Nat} (hr : n ≤ rounds) (hr' : n ≤ rounds') :
    Keeps n (gatherUpTo more item rounds) (gatherUpTo more item' rounds') := by
  induction n generalizing rounds rounds' with
  | zero => exact fun c hc => absurd hc Cursor.Fits.not_zero
  | succ n ih =>
    obtain ⟨rounds, rfl⟩ := Nat.exists_eq_succ_of_ne_zero (Nat.ne_zero_of_lt hr)
    obtain ⟨rounds', rfl⟩ := Nat.exists_eq_succ_of_ne_zero (Nat.ne_zero_of_lt hr')
    refine fun c hc => .get (.ite (fun hm => ?_) fun _ => .pure .refl)
    refine (hi hc hm).bind fun slots d hd => ?_
    have hrest : Keeps n (gatherUpTo more item rounds) (gatherUpTo more item' rounds') :=
      ih (fun c hc => hi (hc.mono n.le_succ)) (Nat.le_of_succ_le_succ hr)
        (Nat.le_of_succ_le_succ hr')
    refine ((hrest.bind fun rest => .pure (slots ++ rest)) (hc.precedes hd)).imp fun _ _ he => ?_
    exact hd.leads.trans he

theorem gather_keeps {item item' : Production Slots}
    (hi : ∀ ⦃c⦄, c.Fits n → more c = true → Agrees item item' c fun _ => c.Precedes) :
    Keeps n (gather more item) (gather more item') := by
  refine fun c hc => .get ?_
  exact gatherUpTo_keeps (fun d hd => hi (hd.mono hc.le)) (Nat.le_refl _) (Nat.le_refl _)
    ⟨hc.ends, Nat.le_refl _⟩

section Trees

variable {p q : Production Tree}

theorem treesUpTo_keeps
    (h : ∀ ⦃c⦄, c.Fits n → more c = true → Agrees p q c fun _ => c.Precedes)
    {rounds rounds' : Nat} (hr : n ≤ rounds) (hr' : n ≤ rounds') :
    Keeps n (gatherUpTo more (do return [some (← p)]) rounds)
      (gatherUpTo more (do return [some (← q)]) rounds') :=
  gatherUpTo_keeps (fun _ hc hm => (h hc hm).bind fun _ _ hd => .pure hd) hr hr'

theorem gatherTrees_keeps
    (h : ∀ ⦃c⦄, c.Fits n → more c = true → Agrees p q c fun _ => c.Precedes) :
    Keeps n (gatherTrees more p) (gatherTrees more q) :=
  gather_keeps fun _ hc hm => (h hc hm).bind fun _ _ hd => .pure hd

theorem pair_agrees (hm : ∀ c, more c = true → ¬ c.atEnd = true) (h : Keeps n p q) ⦃c : Cursor⦄
    (hc : c.Fits n) (hs : more c = true) :
    Agrees (do return [some (← token), some (← p)]) (do return [some (← token), some (← q)]) c
      fun _ => c.Precedes :=
  (Opens.leaf fun _ => h.bind fun _ => .pure _).takesInside hc (hm c hs)

theorem gatherPairs_keeps (hm : ∀ c, more c = true → ¬ c.atEnd = true) (h : Keeps n p q) :
    Keeps n (gatherPairs more p) (gatherPairs more q) :=
  gather_keeps (pair_agrees hm h)

end Trees

end Gather

section Chain

variable {step step' : Tree → Production (Option Tree)}

theorem chainUpTo_keeps (hs : ∀ tree, Offers n (step tree) (step' tree)) {rounds rounds' : Nat}
    (hr : n ≤ rounds) (hr' : n ≤ rounds') (tree : Tree) :
    Keeps n (chainUpTo step rounds tree) (chainUpTo step' rounds' tree) := by
  induction n generalizing rounds rounds' tree with
  | zero => exact fun c hc => absurd hc Cursor.Fits.not_zero
  | succ n ih =>
    obtain ⟨rounds, rfl⟩ := Nat.exists_eq_succ_of_ne_zero (Nat.ne_zero_of_lt hr)
    obtain ⟨rounds', rfl⟩ := Nat.exists_eq_succ_of_ne_zero (Nat.ne_zero_of_lt hr')
    refine fun c hc => (hs tree hc).bind fun o d hd => ?_
    cases o with
    | none => exact .pure hd.1
    | some larger =>
      have hrest := ih (fun tree c hc => hs tree (hc.mono n.le_succ)) (Nat.le_of_succ_le_succ hr)
        (Nat.le_of_succ_le_succ hr') larger (hc.precedes (hd.2 rfl))
      exact hrest.imp fun _ _ he => hd.1.trans he

theorem chain_keeps (hs : ∀ tree, Offers n (step tree) (step' tree)) (tree : Tree) :
    Keeps n (chain step tree) (chain step' tree) := by
  refine fun c hc => .get ?_
  exact chainUpTo_keeps (fun tree d hd => hs tree (hd.mono hc.le)) (Nat.le_refl _)
    (Nat.le_refl _) tree ⟨hc.ends, Nat.le_refl _⟩

end Chain

section Lists

variable {p q : Production Tree}

/-- An element reads a token, and where one is missing its comma does. -/
theorem commaSlots_keeps (close : Punctuator) (allowEmpty : Bool) (h : Takes n p q)
    {rounds rounds' : Nat} (hr : n ≤ rounds) (hr' : n ≤ rounds') :
    Keeps n (commaSlots close allowEmpty p rounds) (commaSlots close allowEmpty q rounds') := by
  induction n generalizing rounds rounds' with
  | zero => exact fun c hc => absurd hc Cursor.Fits.not_zero
  | succ n ih =>
    obtain ⟨rounds, rfl⟩ := Nat.exists_eq_succ_of_ne_zero (Nat.ne_zero_of_lt hr)
    obtain ⟨rounds', rfl⟩ := Nat.exists_eq_succ_of_ne_zero (Nat.ne_zero_of_lt hr')
    have hrest : Keeps n (commaSlots close allowEmpty p rounds)
        (commaSlots close allowEmpty q rounds') :=
      ih (h.mono n.le_succ) (Nat.le_of_succ_le_succ hr) (Nat.le_of_succ_le_succ hr')
    refine fun c hc => .get (.ite (fun _ => .pure .refl) fun _ => .ite (fun hs => ?_) fun _ => ?_)
    · have hcomma := Cursor.not_atEnd_of_sees (Bool.and_eq_true_iff.mp hs).2
      refine ((Opens.leaf fun comma => ?_).takes hc hcomma).imp fun _ _ hd => hd.leads
      exact hrest.bind fun slots => .pure _
    · refine Takes.keeps (h.bind fun tree => (eat_keeps .comma).bind fun o => ?_) hc
      cases o with
      | none => exact .pure _
      | some comma => exact hrest.bind fun slots => .pure _

theorem separatedList_keeps (close : Punctuator) (allowEmpty : Bool) (h : Takes n p q) :
    Keeps n (separatedList close allowEmpty p) (separatedList close allowEmpty q) := by
  refine fun c hc => .get ?_
  have hslots := commaSlots_keeps close allowEmpty (h.mono hc.le) (Nat.le_refl _) (Nat.le_refl _)
  exact (hslots.bind fun slots => .pure _) ⟨hc.ends, Nat.le_refl _⟩

theorem commaList_keeps (close : Punctuator) (h : Takes n p q) :
    Keeps n (commaList close p) (commaList close q) :=
  separatedList_keeps close false h

theorem modifiers_keeps (allowed : List Keyword) :
    Keeps n (modifiers allowed) (modifiers allowed) := by
  refine (gatherTrees_keeps fun c hc hm => ?_).bind fun slots => .pure _
  exact Opens.single.takesInside hc (Cursor.not_atEnd_of_seesAnyKeyword hm)

end Lists

end Production

namespace Nested

open Production

variable {r r' : Nested}

theorem AgreesUpTo.zero : r.AgreesUpTo 0 r' :=
  ⟨fun _ hc => absurd hc Cursor.Fits.not_zero, fun _ _ hc => absurd hc Cursor.Fits.not_zero,
    fun _ hc => absurd hc Cursor.Fits.not_zero, fun _ hc => absurd hc Cursor.Fits.not_zero,
    fun _ hc => absurd hc Cursor.Fits.not_zero, fun _ hc => absurd hc Cursor.Fits.not_zero⟩

theorem AgreesUpTo.expression (hr : r.AgreesUpTo n r') : Takes n r.expression r'.expression :=
  hr.binary 0

theorem statements_keeps (hr : r.AgreesUpTo n r') (stop : Cursor → Bool) :
    Keeps n (r.statements stop) (r'.statements stop) :=
  (gatherTrees_keeps fun _ hc _ => hr.statement hc).bind fun _ => .pure _

theorem block_takes (hr : r.AgreesUpTo n r') : Takes (n + 1) r.block r'.block :=
  (expect_takes _).bind fun _ => (statements_keeps hr _).bind fun _ =>
    (expect_takes _).keeps.bind fun _ => .pure _

theorem parenthesised_takes (hr : r.AgreesUpTo n r') :
    Takes (n + 1) r.parenthesised r'.parenthesised :=
  (expect_takes _).bind fun _ => hr.expression.keeps.bind fun _ =>
    (expect_takes _).keeps.bind fun _ => .pure _

end Nested

end PhpSyntax.Grammar
