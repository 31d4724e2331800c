import PhpSyntax.Proofs.Grammar.Reads

/-!
Two productions that do the same from every cursor with few enough tokens left, and how far they
come. The one may rest on other productions below some depth of nesting, or have other bounds on
its loops; that it does the same shows that neither is ever reached.
-/

namespace PhpSyntax.Grammar

namespace Cursor

variable {c d e : Cursor} {m n : Nat}

theorem Leads.ends (h : c.Leads d) (hc : c.Ends) : d.Ends := by
  obtain ⟨between, hs, hb⟩ := h
  obtain ⟨t, ht, hk⟩ := hc
  rw [hs, List.mem_append] at ht
  obtain ht | ht := ht
  · exact absurd hk (hb t ht)
  · exact ⟨t, ht, hk⟩

theorem Leads.remaining_le (h : c.Leads d) : d.remaining ≤ c.remaining := by
  obtain ⟨between, hs, -⟩ := h
  have hlen := congrArg List.length hs
  simp only [stream, List.length_append, List.length_cons] at hlen
  simp only [remaining]
  omega

/-- Only tokens before the end of the file lie between two places, and at least one. -/
structure Precedes (c d : Cursor) : Prop where
  leads : c.Leads d
  fewer : d.remaining < c.remaining

theorem Precedes.trans_leads (h : c.Precedes d) (h' : d.Leads e) : c.Precedes e :=
  ⟨h.leads.trans h', Nat.lt_of_le_of_lt h'.remaining_le h.fewer⟩

theorem Leads.trans_precedes (h : c.Leads d) (h' : d.Precedes e) : c.Precedes e :=
  ⟨h.trans h'.leads, Nat.lt_of_lt_of_le h'.fewer h.remaining_le⟩

/-- What an optional part comes to: a result came with a token, and nothing went back. -/
def Offered {α : Type} (c : Cursor) (o : Option α) (d : Cursor) : Prop :=
  c.Leads d ∧ (o.isSome → c.Precedes d)

theorem Precedes.offered {α : Type} {o : Option α} (h : c.Precedes d) : c.Offered o d :=
  ⟨h.leads, fun _ => h⟩

theorem offered_none {α : Type} : c.Offered (none : Option α) c :=
  ⟨.refl, nofun⟩

theorem precedes_next (hc : c.Ends) (hn : ¬ c.atEnd = true) : c.Precedes c.next where
  leads := leads_next
  fewer := by
    have hlen := congrArg List.length (stream_next hc hn)
    simp only [stream, List.length_cons] at hlen
    simp only [remaining]
    omega

/-- The end of the file lies ahead, and at most `n` tokens are left. -/
structure Fits (n : Nat) (c : Cursor) : Prop where
  ends : c.Ends
  le : c.remaining ≤ n

namespace Fits

theorem mono (h : c.Fits m) (hmn : m ≤ n) : c.Fits n :=
  ⟨h.ends, Nat.le_trans h.le hmn⟩

theorem leads (h : c.Fits n) (hd : c.Leads d) : d.Fits n :=
  ⟨hd.ends h.ends, Nat.le_trans hd.remaining_le h.le⟩

theorem precedes (h : c.Fits (n + 1)) (hd : c.Precedes d) : d.Fits n :=
  ⟨hd.leads.ends h.ends, Nat.le_of_lt_succ (Nat.lt_of_lt_of_le hd.fewer h.le)⟩

theorem not_zero : ¬ c.Fits 0 :=
  fun h => absurd h.le (by simp [remaining])

end Fits

end Cursor

/-- From `c` on `p` does what `q` does, and where it succeeds its result and the place that it
reaches satisfy `post`. -/
structure Agrees {α : Type} (p q : Production α) (c : Cursor) (post : α → Cursor → Prop) :
    Prop where
  same : p.run c = q.run c
  ensures : p.Ensures c post

namespace Agrees

variable {α β : Type} {c : Cursor} {p q : Production α} {post mid : α → Cursor → Prop}
  {goal : β → Cursor → Prop}

theorem self (h : p.Ensures c post) : Agrees p p c post :=
  ⟨rfl, h⟩

theorem imp (h : Agrees p q c mid) (hp : ∀ a d, mid a d → post a d) : Agrees p q c post :=
  ⟨h.same, h.ensures.imp hp⟩

theorem and (h : Agrees p q c post) (hm : p.Ensures c mid) :
    Agrees p q c fun a d => post a d ∧ mid a d :=
  ⟨h.same, fun a d hr => ⟨h.ensures a d hr, hm a d hr⟩⟩

theorem pure {a : α} (h : post a c) : Agrees (Pure.pure a) (Pure.pure a) c post :=
  self (.pure h)

theorem expected {what : Expectation} :
    Agrees (Production.expected what) (Production.expected what) c post :=
  self .expected

theorem unexpected {what : Expectation} :
    Agrees (Production.unexpected what) (Production.unexpected what) c post :=
  self .unexpected

theorem bind {k k' : α → Production β} (h : Agrees p q c mid)
    (hk : ∀ a d, mid a d → Agrees (k a) (k' a) d goal) : Agrees (p >>= k) (q >>= k') c goal where
  same := by
    rw [StateT.run_bind, StateT.run_bind, ← h.same]
    cases hrun : p.run c with
    | error e => rfl
    | ok r => exact (hk r.1 r.2 (h.ensures r.1 r.2 hrun)).same
  ensures := h.ensures.bind fun a d hd => (hk a d hd).ensures

theorem map {f : α → β} (h : Agrees p q c fun a => goal (f a)) :
    Agrees (f <$> p) (f <$> q) c goal := by
  rw [← bind_pure_comp, ← bind_pure_comp]
  exact h.bind fun a d hd => .pure hd

theorem get {k k' : Cursor → Production α} (h : Agrees (k c) (k' c) c post) :
    Agrees (MonadState.get >>= k) (MonadState.get >>= k') c post :=
  ⟨h.same, h.ensures⟩

theorem ite {b : Prop} [Decidable b] {x y x' y' : Production α} (hx : b → Agrees x x' c post)
    (hy : ¬ b → Agrees y y' c post) :
    Agrees (if b then x else y) (if b then x' else y') c post := by
  by_cases h : b
  · rw [if_pos h, if_pos h]
    exact hx h
  · rw [if_neg h, if_neg h]
    exact hy h

theorem offers {p q : Production (Option α)} (h : Agrees p q c fun _ => c.Precedes) :
    Agrees p q c c.Offered :=
  h.imp fun _ _ hd => hd.offered

theorem some {p q : Production α} (h : Agrees p q c fun _ => c.Precedes) :
    Agrees (Option.some <$> p) (Option.some <$> q) c c.Offered :=
  .map (h.imp fun _ _ hd => hd.offered)

theorem none :
    Agrees (Pure.pure (Option.none : Option α)) (Pure.pure Option.none) c c.Offered :=
  .pure Cursor.offered_none

/-- After a result nothing more needs to be read, but without one a token does. -/
theorem bindOffer {p q : Production (Option α)} {k k' : Option α → Production β}
    (h : Agrees p q c c.Offered)
    (hsome : ∀ a d, c.Leads d → Agrees (k (Option.some a)) (k' (Option.some a)) d fun _ => d.Leads)
    (hnone : ∀ d, c.Leads d → Agrees (k Option.none) (k' Option.none) d fun _ => d.Precedes) :
    Agrees (p >>= k) (q >>= k') c fun _ => c.Precedes := by
  refine h.bind fun o d hd => ?_
  cases o with
  | none => exact (hnone d hd.1).imp fun _ _ he => hd.1.trans_precedes he
  | some a => exact (hsome a d hd.1).imp fun _ _ he => (hd.2 rfl).trans_leads he

end Agrees

variable {α β : Type} {m n : Nat}

/-- Where at most `n` tokens are left, `p` does what `q` does and does not go back. -/
def Keeps (n : Nat) (p q : Production α) : Prop :=
  ∀ ⦃c⦄, c.Fits n → Agrees p q c fun _ => c.Leads

/-- Where at most `n` tokens are left, `p` does what `q` does and reads a token. -/
def Takes (n : Nat) (p q : Production α) : Prop :=
  ∀ ⦃c⦄, c.Fits n → Agrees p q c fun _ => c.Precedes

/-- Where at most `n` tokens are left, `p` does what `q` does, and it reads a token wherever it
has a result. -/
def Offers (n : Nat) (p q : Production (Option α)) : Prop :=
  ∀ ⦃c⦄, c.Fits n → Agrees p q c c.Offered

/-- At `c`, where at most `n` tokens are left, `p` does what `q` does and does not go back. One more
token may be left where the file does not end there; then a token is read. -/
structure OpensAt (n : Nat) (p q : Production α) (c : Cursor) : Prop where
  keeps : c.Fits n → Agrees p q c fun _ => c.Leads
  takes : c.Fits (n + 1) → ¬ c.atEnd = true → Agrees p q c fun _ => c.Precedes

/-- The first step of `p` and `q` reads a token, unless the file ends there. What follows does the
same where at most `n` tokens are left. -/
def Opens (n : Nat) (p q : Production α) : Prop :=
  ∀ c, OpensAt n p q c

section Rules

variable {p q : Production α} {k k' : α → Production β}

theorem Keeps.mono (h : Keeps n p q) (hmn : m ≤ n) : Keeps m p q :=
  fun _ hc => h (hc.mono hmn)

theorem Keeps.pure (a : α) : Keeps n (Pure.pure a) (Pure.pure a) :=
  fun _ _ => .pure .refl

theorem Keeps.bind (h : Keeps n p q) (hk : ∀ a, Keeps n (k a) (k' a)) :
    Keeps n (p >>= k) (q >>= k') :=
  fun _ hc => (h hc).bind fun a _ hd => (hk a (hc.leads hd)).imp fun _ _ he => hd.trans he

theorem Keeps.bindTakes (h : Keeps n p q) (hk : ∀ a, Takes n (k a) (k' a)) :
    Takes n (p >>= k) (q >>= k') :=
  fun _ hc => (h hc).bind fun a _ hd =>
    (hk a (hc.leads hd)).imp fun _ _ he => hd.trans_precedes he

theorem Keeps.map (f : α → β) (h : Keeps n p q) : Keeps n (f <$> p) (f <$> q) := by
  rw [← bind_pure_comp, ← bind_pure_comp]
  exact h.bind fun a => .pure (f a)

theorem Takes.bind (h : Takes (n + 1) p q) (hk : ∀ a, Keeps n (k a) (k' a)) :
    Takes (n + 1) (p >>= k) (q >>= k') :=
  -- one token fewer is left for what follows, and so it may nest
  fun _ hc => (h hc).bind fun a _ hd =>
    (hk a (hc.precedes hd)).imp fun _ _ he => hd.trans_leads he

theorem Takes.andThen (h : Takes n p q) (hk : ∀ a, Keeps n (k a) (k' a)) :
    Takes n (p >>= k) (q >>= k') :=
  fun _ hc => (h hc).bind fun a _ hd =>
    (hk a (hc.leads hd.leads)).imp fun _ _ he => hd.trans_leads he

theorem Takes.mono (h : Takes n p q) (hmn : m ≤ n) : Takes m p q :=
  fun _ hc => h (hc.mono hmn)

theorem Takes.keeps (h : Takes n p q) : Keeps n p q :=
  fun _ hc => (h hc).imp fun _ _ hd => hd.leads

/-- A production that nests others does the same on as many tokens as they do. -/
theorem Takes.keepsInside (h : Takes (n + 1) p q) : Keeps n p q :=
  (h.mono n.le_succ).keeps

theorem OpensAt.get {k k' : Cursor → Production α} {c : Cursor} (h : OpensAt n (k c) (k' c) c) :
    OpensAt n (MonadState.get >>= k) (MonadState.get >>= k') c :=
  ⟨fun hc => .get (h.keeps hc), fun hc hn => .get (h.takes hc hn)⟩

theorem OpensAt.ite {b : Prop} [Decidable b] {x y x' y' : Production α} {c : Cursor}
    (hx : b → OpensAt n x x' c) (hy : ¬ b → OpensAt n y y' c) :
    OpensAt n (if b then x else y) (if b then x' else y') c where
  keeps hc := .ite (fun h => (hx h).keeps hc) fun h => (hy h).keeps hc
  takes hc hn := .ite (fun h => (hx h).takes hc hn) fun h => (hy h).takes hc hn

theorem Opens.keeps (h : Opens n p q) : Keeps n p q :=
  fun c hc => (h c).keeps hc

theorem Opens.takes (h : Opens n p q) ⦃c : Cursor⦄ (hc : c.Fits (n + 1))
    (hn : ¬ c.atEnd = true) : Agrees p q c fun _ => c.Precedes :=
  (h c).takes hc hn

theorem Opens.takesInside (h : Opens n p q) ⦃c : Cursor⦄ (hc : c.Fits n)
    (hn : ¬ c.atEnd = true) : Agrees p q c fun _ => c.Precedes :=
  h.takes (hc.mono n.le_succ) hn

theorem Takes.opens (h : Takes (n + 1) p q) : Opens n p q :=
  fun _ => ⟨fun hc => h.keepsInside hc, fun hc _ => h hc⟩

theorem Opens.leaf {kind : Kind} {k k' : Tree → Production α} (hk : ∀ t, Keeps n (k t) (k' t)) :
    Opens n (Production.leaf kind >>= k) (Production.leaf kind >>= k') := by
  refine fun c => ⟨fun hc => ?_, fun hc hn => ?_⟩
  · have hleaf : Agrees (Production.leaf kind) (Production.leaf kind) c fun _ => c.Leads := by
      refine .self ?_
      rintro _ _ ⟨⟩
      exact Cursor.leads_next
    exact hleaf.bind fun t d hd => (hk t (hc.leads hd)).imp fun _ _ he => hd.trans he
  · have hleaf : Agrees (Production.leaf kind) (Production.leaf kind) c fun _ => c.Precedes := by
      refine .self ?_
      rintro _ _ ⟨⟩
      exact Cursor.precedes_next hc.ends hn
    exact hleaf.bind fun t d hd => (hk t (hc.precedes hd)).imp fun _ _ he => hd.trans_leads he

theorem Opens.single {kind : Kind} : Opens n (Production.leaf kind) (Production.leaf kind) := by
  rw [← bind_pure (Production.leaf kind)]
  exact .leaf fun t => .pure t

theorem Offers.keeps {p q : Production (Option α)} (h : Offers n p q) : Keeps n p q :=
  fun _ hc => (h hc).imp fun _ _ hd => hd.1

end Rules

/-- The productions in `r` do the same as the ones in `r'` where at most `n` tokens are left, and
they read a token. A computed variable name is only asked for where a token stands. -/
structure Nested.AgreesUpTo (n : Nat) (r r' : Nested) : Prop where
  statement : Takes n r.statement r'.statement
  binary : ∀ level, Takes n (r.binary level) (r'.binary level)
  unary : Takes n r.unary r'.unary
  access : Takes n r.access r'.access
  dollarVariable : ∀ ⦃c⦄, c.Fits n → ¬ c.atEnd = true →
    Agrees r.dollarVariable r'.dollarVariable c fun _ => c.Precedes
  typeAtom : Takes n r.typeAtom r'.typeAtom

end PhpSyntax.Grammar
