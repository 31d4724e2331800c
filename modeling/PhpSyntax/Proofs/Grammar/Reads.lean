import PhpSyntax.Grammar.Production
import PhpSyntax.Proofs.Tree.Sound

namespace PhpSyntax.Grammar

namespace Production

variable {α β : Type} {c : Cursor}

/-- Every successful run from `c` ends with a result and at a place that satisfy `post`. -/
def Ensures (p : Production α) (c : Cursor) (post : α → Cursor → Prop) : Prop :=
  ∀ a c', p.run c = .ok (a, c') → post a c'

namespace Ensures

theorem pure {a : α} {post : α → Cursor → Prop} (h : post a c) :
    Ensures (Pure.pure a) c post := by
  intro b c' hr
  rw [StateT.run_pure] at hr
  cases hr
  exact h

theorem bind {x : Production α} {f : α → Production β} {mid : α → Cursor → Prop}
    {post : β → Cursor → Prop} (hx : x.Ensures c mid)
    (hf : ∀ a c', mid a c' → (f a).Ensures c' post) : (x >>= f).Ensures c post := by
  intro b c' hr
  rw [StateT.run_bind] at hr
  cases hx' : x.run c with
  | error e => simp [hx', Bind.bind, Except.bind] at hr
  | ok r =>
    obtain ⟨a, c₁⟩ := r
    simp only [hx', Bind.bind, Except.bind] at hr
    exact hf a c₁ (hx a c₁ hx') b c' hr

theorem get {f : Cursor → Production β} {post : β → Cursor → Prop}
    (h : (f c).Ensures c post) : (MonadState.get >>= f).Ensures c post :=
  h

theorem leaf {k : Kind} {f : Tree → Production β} {post : β → Cursor → Prop}
    (h : (f (.leaf k c.current)).Ensures c.next post) :
    (Production.leaf k >>= f).Ensures c post :=
  h

theorem map {x : Production α} {f : α → β} {post : β → Cursor → Prop}
    (hx : x.Ensures c fun a => post (f a)) : (f <$> x).Ensures c post := by
  rw [← bind_pure_comp]
  exact hx.bind fun _ _ h => .pure h

theorem imp {x : Production α} {post post' : α → Cursor → Prop} (hx : x.Ensures c post)
    (h : ∀ a c', post a c' → post' a c') : x.Ensures c post' :=
  fun a c' hr => h a c' (hx a c' hr)

theorem expected {what : Expectation} {post : α → Cursor → Prop} :
    (Production.expected what).Ensures c post :=
  fun _ _ hr => nomatch hr

theorem unexpected {what : Expectation} {post : α → Cursor → Prop} :
    (Production.unexpected what).Ensures c post :=
  fun _ _ hr => nomatch hr

end Ensures

end Production

namespace Cursor

def stream (c : Cursor) : List Token :=
  c.current :: c.ahead

def Ends (c : Cursor) : Prop :=
  ∃ t ∈ c.stream, t.kind = .eof

variable {c d e : Cursor}

theorem atEnd_iff : c.atEnd = true ↔ c.current.kind = .eof := by
  simp [atEnd]

theorem not_atEnd_of_seesKind {k : TokenKind} (h : c.seesKind k = true) (hk : k ≠ .eof) :
    ¬ c.atEnd = true := by
  have hc : c.current.kind = k := by simpa [seesKind] using h
  simpa [atEnd_iff, hc] using hk

theorem not_atEnd_of_sees {p : Punctuator} (h : c.sees p = true) : ¬ c.atEnd = true := by
  have hc : c.current.kind = .punctuator := by
    simp only [sees, Token.isPunctuator, Bool.and_eq_true, decide_eq_true_eq] at h
    exact h.1
  simp [atEnd_iff, hc]

theorem not_atEnd_of_seesKeyword {k : Keyword} (h : c.seesKeyword k = true) :
    ¬ c.atEnd = true := by
  have hc : c.current.kind = .identifier := by
    simp only [seesKeyword, Token.isKeyword, Bool.and_eq_true, decide_eq_true_eq] at h
    exact h.1
  simp [atEnd_iff, hc]

theorem not_atEnd_of_seesAnyKeyword {ks : List Keyword} (h : c.seesAnyKeyword ks = true) :
    ¬ c.atEnd = true := by
  obtain ⟨k, _, hk⟩ := List.any_eq_true.mp h
  exact not_atEnd_of_seesKeyword hk

theorem not_atEnd_of_seesAny {ps : List Punctuator} (h : c.seesAny ps = true) :
    ¬ c.atEnd = true := by
  obtain ⟨p, _, hp⟩ := List.any_eq_true.mp h
  exact not_atEnd_of_sees hp

theorem stream_next (he : c.Ends) (hc : ¬ c.atEnd = true) :
    c.stream = c.current :: c.next.stream := by
  obtain ⟨current, ahead⟩ := c
  obtain ⟨t, ht, hk⟩ := he
  cases ahead with
  | nil =>
    obtain rfl : t = current := by simpa [stream] using ht
    exact absurd (atEnd_iff.mpr hk) hc
  | cons a ahead => simp [stream, next, hc]

theorem peek_one (hc : ¬ c.atEnd = true) : c.peek 1 = c.next.current := by
  obtain ⟨current, ahead⟩ := c
  cases ahead <;> simp [next, peek, hc]

/-- Only tokens before the end of the file lie between two places. -/
def Leads (c d : Cursor) : Prop :=
  ∃ between, c.stream = between ++ d.stream ∧ ∀ t ∈ between, t.kind ≠ .eof

namespace Leads

theorem refl : c.Leads c :=
  ⟨[], rfl, nofun⟩

theorem trans (h : c.Leads d) (h' : d.Leads e) : c.Leads e := by
  obtain ⟨between, hs, hb⟩ := h
  obtain ⟨between', hs', hb'⟩ := h'
  refine ⟨between ++ between', by rw [hs, hs', List.append_assoc], ?_⟩
  exact List.forall_mem_append.mpr ⟨hb, hb'⟩

end Leads

theorem next_cases (c : Cursor) :
    c.next = c ∨ c.current.kind ≠ .eof ∧ c.stream = c.current :: c.next.stream := by
  obtain ⟨current, ahead⟩ := c
  unfold next
  split
  · exact .inl rfl
  · next hc =>
    cases ahead with
    | nil => exact .inl rfl
    | cons t ts => exact .inr ⟨by simpa [atEnd] using hc, rfl⟩

theorem leads_next : c.Leads c.next := by
  obtain h | ⟨hk, hs⟩ := c.next_cases
  · rw [h]
    exact .refl
  · exact ⟨[c.current], hs, by simpa using hk⟩

end Cursor

/-- The trees `ts` hold the tokens from `c` to `c'` in order, none of which is the end of the file,
and each of them is sound. -/
structure Reads (c : Cursor) (ts : List Tree) (c' : Cursor) : Prop where
  stream_eq : c.stream = ts.flatMap Tree.tokens ++ c'.stream
  inside : ∀ t ∈ ts.flatMap Tree.tokens, t.kind ≠ .eof
  ends : c'.Ends
  sound : ∀ t ∈ ts, t.Sound

namespace Reads

variable {c c' : Cursor} {us ts : List Tree}

theorem refl (h : c.Ends) : Reads c [] c :=
  ⟨rfl, by simp, h, by simp⟩

theorem leaf {k : Kind} (h : Reads c us c') (hc : ¬ c'.atEnd = true)
    (hk : k.holds c'.current = true) : Reads c (us ++ [.leaf k c'.current]) c'.next where
  stream_eq := by rw [h.stream_eq, Cursor.stream_next h.ends hc]; simp
  inside := by
    have hl := mt Cursor.atEnd_iff.mpr hc
    rw [List.flatMap_append, List.forall_mem_append]
    exact ⟨h.inside, by simpa using hl⟩
  ends := by
    obtain ⟨t, ht, hk⟩ := h.ends
    rw [Cursor.stream_next h.ends hc] at ht
    obtain rfl | ht := List.mem_cons.mp ht
    · exact absurd (Cursor.atEnd_iff.mpr hk) hc
    · exact ⟨t, ht, hk⟩
  sound := by
    rw [List.forall_mem_append]
    exact ⟨h.sound, by simpa [Tree.sound_leaf] using hk⟩

theorem token (h : Reads c us c') (hc : ¬ c'.atEnd = true) :
    Reads c (us ++ [.leaf .token c'.current]) c'.next :=
  h.leaf hc rfl

/-- What was read last becomes the slots of a node. -/
theorem node {k : Kind} {cs : List (Option Tree)} (h : Reads c (us ++ filled cs) c')
    (hk : (Tree.node k cs).Fits) : Reads c (us ++ [.node k cs]) c' where
  stream_eq := by simpa using h.stream_eq
  inside := by simpa using h.inside
  ends := h.ends
  sound := by
    have hs := List.forall_mem_append.mp h.sound
    rw [List.forall_mem_append, List.forall_mem_singleton, Tree.sound_node]
    exact ⟨hs.1, hk, hs.2⟩

theorem list {cs : List (Option Tree)} (h : Reads c (us ++ filled cs) c') :
    Reads c (us ++ [.node .plainList cs]) c' :=
  h.node ⟨rfl, nofun⟩

/-- Reading on from `c'` takes away from what is left there. -/
theorem stream_of_append {c'' : Cursor} (h : Reads c us c') (h' : Reads c (us ++ ts) c'') :
    c'.stream = ts.flatMap Tree.tokens ++ c''.stream := by
  have he := h.stream_eq.symm.trans h'.stream_eq
  rwa [List.flatMap_append, List.append_assoc, List.append_cancel_left_eq] at he

end Reads

structure Took (c : Cursor) (us : List Tree) (t : Tree) (c' : Cursor) : Prop where
  reads : Reads c (us ++ [t]) c'
  consumed : t.tokens ≠ []

/-- A tree with at least one token was read that is more than a part of a construct. -/
structure Parsed (c : Cursor) (us : List Tree) (t : Tree) (c' : Cursor) : Prop
    extends Took c us t c' where
  proper : t.kind ≠ .token

def Production.Parses (p : Production Tree) : Prop :=
  ∀ ⦃c us c'⦄, Reads c us c' → p.Ensures c' (Parsed c us)

def isPlainNode (k : Kind) (cs : List (Option Tree)) : Bool :=
  (Tree.node? k cs).isSome && !k.isSeparated

theorem fits_of_isPlainNode {k : Kind} {cs : List (Option Tree)} (h : isPlainNode k cs = true) :
    (Tree.node k cs).Fits := by
  simp only [isPlainNode, Bool.and_eq_true, Bool.not_eq_true'] at h
  exact ⟨h.1, by simp [h.2]⟩

theorem ne_token_of_fits {k : Kind} {cs : List (Option Tree)} (h : (Tree.node k cs).Fits) :
    k ≠ .token := by
  rintro rfl
  simp [Tree.Fits, Tree.node?, Kind.isLeaf] at h

namespace Parsed

variable {c c' : Cursor} {us : List Tree} {k : Kind} {cs : List (Option Tree)}

theorem node (h : Reads c (us ++ filled cs) c') (hne : (filled cs).flatMap Tree.tokens ≠ [])
    (hk : (Tree.node k cs).Fits) : Parsed c us (.node k cs) c' where
  reads := h.node hk
  consumed := by simpa using hne
  proper := ne_token_of_fits hk

theorem plain (h : Reads c (us ++ filled cs) c') (hne : (filled cs).flatMap Tree.tokens ≠ [])
    (hk : isPlainNode k cs = true) : Parsed c us (.node k cs) c' :=
  node h hne (fits_of_isPlainNode hk)

theorem not_separator {t : Tree} (h : Parsed c us t c') : Tree.isSeparator (some t) = false := by
  have hp := h.proper
  cases t with
  | leaf k tok => cases k <;> first | rfl | exact absurd rfl hp
  | node k cs => rfl

end Parsed

end PhpSyntax.Grammar
