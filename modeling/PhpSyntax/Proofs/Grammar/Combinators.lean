import PhpSyntax.Proofs.Grammar.Reads

namespace PhpSyntax.Grammar

namespace Production

open PhpSyntax.Tree (Alternates Paired isSeparator)

variable {c c' : Cursor} {us : List Tree}

theorem leaf_took {k : Kind} (h : Reads c us c') (hc : ¬ c'.atEnd = true)
    (hk : k.holds c'.current = true) : (leaf k).Ensures c' (Took c us) := by
  rintro t d hr
  cases hr
  exact ⟨h.leaf hc hk, by simp⟩

theorem leaf_parsed {k : Kind} (h : Reads c us c') (hc : ¬ c'.atEnd = true)
    (hk : k.holds c'.current = true) (hp : k ≠ .token) : (leaf k).Ensures c' (Parsed c us) := by
  rintro t d hr
  cases hr
  exact ⟨⟨h.leaf hc hk, by simp⟩, hp⟩

theorem token_took (h : Reads c us c') (hc : ¬ c'.atEnd = true) :
    token.Ensures c' (Took c us) :=
  leaf_took h hc rfl

theorem leafIf_took {accept : Cursor → Bool} {k : Kind} {what : Expectation}
    (h : Reads c us c')
    (ha : accept c' = true → ¬ c'.atEnd = true ∧ k.holds c'.current = true) :
    (leafIf accept k what).Ensures c' (Took c us) := by
  refine .get ?_
  split
  · next hc => exact leaf_took h (ha hc).1 (ha hc).2
  · exact .expected

theorem leafIf_parsed {accept : Cursor → Bool} {k : Kind} {what : Expectation}
    (ha : ∀ d, accept d = true → ¬ d.atEnd = true ∧ k.holds d.current = true)
    (hp : k ≠ .token) : (leafIf accept k what).Parses := by
  intro c us c' h
  refine .get ?_
  split
  · next hc => exact leaf_parsed h (ha c' hc).1 (ha c' hc).2 hp
  · exact .expected

theorem expect_took (p : Punctuator) (h : Reads c us c') :
    (expect p).Ensures c' (Took c us) :=
  leafIf_took h fun hc => ⟨Cursor.not_atEnd_of_sees hc, rfl⟩

theorem expectKeyword_took (k : Keyword) (h : Reads c us c') :
    (expectKeyword k).Ensures c' (Took c us) :=
  leafIf_took h fun hc => ⟨Cursor.not_atEnd_of_seesKeyword hc, rfl⟩

theorem not_atEnd_of_seesStatementEnd (h : c.seesStatementEnd = true) : ¬ c.atEnd = true := by
  simp only [Cursor.seesStatementEnd, Bool.or_eq_true] at h
  exact h.elim Cursor.not_atEnd_of_sees (Cursor.not_atEnd_of_seesKind · nofun)

theorem statementEnd_took (h : Reads c us c') : statementEnd.Ensures c' (Took c us) :=
  leafIf_took h fun hc => ⟨not_atEnd_of_seesStatementEnd hc, rfl⟩

theorem variableName_parses : variableName.Parses :=
  leafIf_parsed (fun _ hc => ⟨Cursor.not_atEnd_of_seesKind hc nofun, hc⟩) nofun

theorem identifier_parses : identifier.Parses :=
  leafIf_parsed (fun _ hc => ⟨Cursor.not_atEnd_of_seesKind hc nofun, hc⟩) nofun

theorem name_parses : name.Parses := by
  intro c us c' h
  refine .get (leafIf_parsed (fun d hc => ⟨?_, ?_⟩) ?_ h)
  · exact Cursor.not_atEnd_of_seesKind hc nofun
  · split <;> exact hc
  · split <;> exact nofun

theorem eat_token (p : Punctuator) (h : Reads c us c') :
    (eat p).Ensures c' fun o d => Reads c (us ++ o.toList) d ∧
      ∀ t, o = some t → t = .leaf .token c'.current ∧ c'.sees p = true := by
  refine .get ?_
  split
  · next hc =>
    refine .map ?_
    rintro t d hr
    cases hr
    exact ⟨h.token (Cursor.not_atEnd_of_sees hc), by simp [hc]⟩
  · exact .pure ⟨by simpa using h, nofun⟩

theorem eatIf_reads {accept : Cursor → Bool} (h : Reads c us c')
    (ha : accept c' = true → ¬ c'.atEnd = true) :
    (eatIf accept).Ensures c' fun o d => Reads c (us ++ o.toList) d := by
  refine .get ?_
  split
  · next hc => exact .map ((token_took h (ha hc)).imp fun _ _ ht => ht.reads)
  · exact .pure (by simpa using h)

theorem eat_reads (p : Punctuator) (h : Reads c us c') :
    (eat p).Ensures c' fun o d => Reads c (us ++ o.toList) d :=
  (eat_token p h).imp fun _ _ ho => ho.1

theorem eatKeyword_reads (k : Keyword) (h : Reads c us c') :
    (eatKeyword k).Ensures c' fun o d => Reads c (us ++ o.toList) d :=
  eatIf_reads h Cursor.not_atEnd_of_seesKeyword

theorem optional_reads {accept : Cursor → Bool} {p : Production Tree} (h : Reads c us c')
    (hp : accept c' = true → p.Ensures c' (Parsed c us)) :
    (Production.optional accept p).Ensures c' fun o d => Reads c (us ++ o.toList) d := by
  refine .get ?_
  split
  · next hc => exact .map ((hp hc).imp fun _ _ ht => ht.reads)
  · exact .pure (by simpa using h)

theorem introduced_reads {opening : Production (Option Tree)} {body : Production Tree}
    (ho : opening.Ensures c' fun o d => Reads c (us ++ o.toList) d) (hb : body.Parses) :
    (introduced opening body).Ensures c' fun p d =>
      Reads c (us ++ p.1.toList ++ p.2.toList) d := by
  refine ho.bind fun o d hd => ?_
  cases o with
  | none => exact .pure (by simpa using hd)
  | some t =>
    refine (hb hd).bind fun t' d' hd' => ?_
    exact .pure (by simpa using hd'.reads)

section Gather

variable {more : Cursor → Bool} {item : Production Slots} {P : Slots → Prop}

/-- A loop whose rounds read tokens ends where `more` fails, if it has as many rounds as there are
tokens; what holds of each round's slots and of slots put together holds of all slots. -/
theorem gatherUpTo_reads (hnil : P []) (happend : ∀ a b, P a → P b → P (a ++ b))
    (hi : ∀ us c', Reads c us c' → more c' = true → item.Ensures c' fun slots d =>
      Reads c (us ++ filled slots) d ∧ (filled slots).flatMap Tree.tokens ≠ [] ∧ P slots)
    (rounds : Nat) (h : Reads c us c') :
    (gatherUpTo more item rounds).Ensures c' fun slots d =>
      Reads c (us ++ filled slots) d ∧ P slots ∧
        (c'.remaining ≤ rounds → more d = false) := by
  induction rounds generalizing us c' with
  | zero => exact .pure ⟨by simpa using h, hnil, fun hle => absurd hle (by simp [Cursor.remaining])⟩
  | succ rounds ih =>
    refine .get ?_
    split
    · next hm =>
      refine (hi us c' h hm).bind fun slots d hd => ?_
      obtain ⟨hread, hne, hslots⟩ := hd
      refine (ih hread).bind fun rest e he => ?_
      refine .pure ⟨by simpa using he.1, happend _ _ hslots he.2.1, fun hle => he.2.2 ?_⟩
      have hlen := congrArg List.length (h.stream_of_append hread)
      have hpos := List.length_pos_iff.mpr hne
      simp only [Cursor.stream, List.length_append, List.length_cons] at hlen
      simp only [Cursor.remaining] at hle ⊢
      omega
    · next hm => exact .pure ⟨by simpa using h, hnil, fun _ => by simpa using hm⟩

theorem gatherTrees_reads {tree : Production Tree}
    (ht : ∀ us c', Reads c us c' → more c' = true → tree.Ensures c' (Took c us))
    (h : Reads c us c') :
    (gatherTrees more tree).Ensures c' fun slots d =>
      Reads c (us ++ filled slots) d ∧ more d = false := by
  refine .get ?_
  refine (gatherUpTo_reads (P := fun _ => True) trivial (fun _ _ _ _ => trivial)
    (fun us c' h hm => ?_) _ h).imp fun slots d hd => ⟨hd.1, hd.2.2 (Nat.le_refl _)⟩
  refine (ht us c' h hm).bind fun t d hd => ?_
  exact .pure ⟨by simpa using hd.reads, by simpa using hd.consumed, trivial⟩

theorem gatherTrees_list {tree : Production Tree}
    (ht : ∀ us c', Reads c us c' → more c' = true → tree.Ensures c' (Parsed c us))
    (h : Reads c us c') :
    (gatherTrees more tree).Ensures c' fun slots d => Reads c (us ++ [.node .plainList slots]) d := by
  have ht' : ∀ us c', Reads c us c' → more c' = true → tree.Ensures c' (Took c us) :=
    fun us c' h hm => (ht us c' h hm).imp fun _ _ hd => hd.toTook
  exact (gatherTrees_reads ht' h).imp fun _ _ hd => hd.1.list

theorem gatherPairs_reads {element : Production Tree} (he : element.Parses)
    (hm : ∀ d, more d = true → [.comma, .pipe, .ampersand].any d.current.isPunctuator = true)
    (h : Reads c us c') :
    (gatherPairs more element).Ensures c' fun slots d =>
      Reads c (us ++ filled slots) d ∧ Paired slots := by
  refine .get ?_
  refine (gatherUpTo_reads trivial (fun _ _ => Paired.append) (fun us c' h hc => ?_) _ h).imp
    fun slots d hd => ⟨hd.1, hd.2.1⟩
  have hs := hm c' hc
  obtain ⟨p, _, hp⟩ := List.any_eq_true.mp hs
  refine Ensures.leaf ?_
  refine (he (h.token (Cursor.not_atEnd_of_sees hp))).bind fun t d hd => ?_
  exact .pure ⟨by simpa using hd.reads, by simp, hs, hd.not_separator, trivial⟩

end Gather

section Chain

variable {step : Tree → Production (Option Tree)}

theorem chain_parsed {tree : Tree}
    (hs : ∀ tree c', Parsed c us tree c' →
      (step tree).Ensures c' fun o d => Parsed c us (o.getD tree) d)
    (h : Parsed c us tree c') : (chain step tree).Ensures c' (Parsed c us) := by
  refine .get ?_
  generalize c'.remaining = rounds
  induction rounds generalizing tree c' with
  | zero => exact .pure h
  | succ rounds ih =>
    refine (hs tree c' h).bind fun o d hd => ?_
    cases o with
    | none => exact .pure hd
    | some larger => exact ih hd

end Chain

section Lists

variable {element : Production Tree}

theorem commaSlots_reads (close : Punctuator) (allowEmpty : Bool) (he : element.Parses)
    (rounds : Nat) (h : Reads c us c') :
    (commaSlots close allowEmpty element rounds).Ensures c' fun slots d =>
      Reads c (us ++ filled slots) d ∧ Alternates slots := by
  have isSep : ∀ d : Cursor, d.sees .comma = true →
      isSeparator (some (.leaf .token d.current)) = true := by
    intro d hd
    exact List.any_eq_true.mpr ⟨.comma, by simp, hd⟩
  induction rounds generalizing us c' with
  | zero => exact .pure ⟨by simpa using h, trivial⟩
  | succ rounds ih =>
    refine .get ?_
    split
    · exact .pure ⟨by simpa using h, trivial⟩
    split
    · next hc =>
      have hcomma := (Bool.and_eq_true_iff.mp hc).2
      refine Ensures.leaf ?_
      refine (ih (h.token (Cursor.not_atEnd_of_sees hcomma))).bind fun slots d hd => ?_
      exact .pure ⟨by simpa using hd.1, rfl, isSep c' hcomma, hd.2⟩
    · refine (he h).bind fun tree d hd => ?_
      refine (eat_token .comma hd.reads).bind fun o e ho => ?_
      cases o with
      | none => exact .pure ⟨by simpa using ho.1, hd.not_separator⟩
      | some comma =>
        obtain ⟨rfl, hcomma⟩ := ho.2 comma rfl
        refine (ih ho.1).bind fun slots f hf => ?_
        exact .pure ⟨by simpa using hf.1, hd.not_separator, isSep d hcomma, hf.2⟩

theorem separatedList_reads (close : Punctuator) (allowEmpty : Bool) (he : element.Parses)
    (h : Reads c us c') :
    (separatedList close allowEmpty element).Ensures c' fun t d => Reads c (us ++ [t]) d := by
  refine .get ?_
  refine (commaSlots_reads close allowEmpty he _ h).bind fun slots d hd => ?_
  exact .pure (hd.1.node ⟨rfl, fun _ => hd.2⟩)

theorem commaList_reads (close : Punctuator) (he : element.Parses) (h : Reads c us c') :
    (commaList close element).Ensures c' fun t d => Reads c (us ++ [t]) d :=
  separatedList_reads close false he h

theorem delimited_parses (separator : Punctuator) (he : element.Parses)
    (hs : separator ∈ [Punctuator.comma, .pipe, .ampersand]) :
    (delimited separator element).Parses := by
  intro c us c' h
  refine (he h).bind fun first d hd => ?_
  have hm : ∀ e : Cursor, e.sees separator = true →
      [.comma, .pipe, .ampersand].any e.current.isPunctuator = true :=
    fun e hc => List.any_eq_true.mpr ⟨separator, hs, hc⟩
  refine (gatherPairs_reads he hm hd.reads).bind fun rest e hr => ?_
  refine .pure (.node (by simpa using hr.1) (by simp [hd.consumed]) ⟨rfl, fun _ => ?_⟩)
  exact hr.2.alternates hd.not_separator

theorem nameList_parses : nameList.Parses :=
  delimited_parses .comma name_parses (by simp)

theorem modifiers_reads (allowed : List Keyword) (h : Reads c us c') :
    (modifiers allowed).Ensures c' fun t d => Reads c (us ++ [t]) d := by
  refine (gatherTrees_reads (fun us c' h hc => ?_) h).bind fun slots d hd => .pure hd.1.list
  exact token_took h (Cursor.not_atEnd_of_seesAnyKeyword hc)

end Lists

end Production

/-- What the productions inside others do. A computed variable name is only asked for where a token
stands. -/
structure Nested.Parses (r : Nested) : Prop where
  statement : r.statement.Parses
  binary : ∀ level, (r.binary level).Parses
  unary : r.unary.Parses
  access : r.access.Parses
  dollarVariable : ∀ ⦃c us c'⦄, Reads c us c' → ¬ c'.atEnd = true →
    r.dollarVariable.Ensures c' (Parsed c us)
  typeAtom : r.typeAtom.Parses

namespace Nested

open Production

variable {r : Nested} {c c' : Cursor} {us : List Tree}

theorem Parses.expression (hr : r.Parses) : r.expression.Parses :=
  hr.binary 0

theorem statements_reads (hr : r.Parses) (stop : Cursor → Bool) (h : Reads c us c') :
    (r.statements stop).Ensures c' fun t d => Reads c (us ++ [t]) d := by
  exact (gatherTrees_list (fun us c' h _ => hr.statement h) h).bind fun slots d hd => .pure hd

theorem block_parses (hr : r.Parses) : r.block.Parses := by
  intro c us c' h
  refine (expect_took _ h).bind fun left c₁ h₁ => ?_
  refine (statements_reads hr _ h₁.reads).bind fun body c₂ h₂ => ?_
  refine (expect_took _ h₂).bind fun right c₃ h₃ => ?_
  exact .pure (.plain (by simpa using h₃.reads) (by simp [h₁.consumed]) rfl)

theorem parenthesised_parses (hr : r.Parses) : r.parenthesised.Parses := by
  intro c us c' h
  refine (expect_took _ h).bind fun left c₁ h₁ => ?_
  refine (hr.expression h₁.reads).bind fun inner c₂ h₂ => ?_
  refine (expect_took _ h₂.reads).bind fun right c₃ h₃ => ?_
  exact .pure (.plain (by simpa using h₃.reads) (by simp [h₁.consumed]) rfl)

end Nested

end PhpSyntax.Grammar
