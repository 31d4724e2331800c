import PhpSyntax.Proofs.Pattern.Classes

/-!
Two readings that do the same from a place on, and how far they come. The one may rest on other
readers below some depth of nesting, or have other bounds on its loops; that it does the same shows
that neither is ever reached.
-/

namespace PhpSyntax.Pattern

open Reader

namespace Reading

variable {α β : Type} {r r' : Reader} {x y : Reading α} {k k' : α → Reading β}
  {mid post : Reader → Prop}

/-- From `r` on `x` does what `y` does. It reads on, and the place that it reaches satisfies
`post`. -/
structure Agrees (x y : Reading α) (r : Reader) (post : Reader → Prop) : Prop where
  same : x r = y r
  advances : Advances r (x r).2
  ensures : post (x r).2

abbrev Alike (x y : Reading α) (r : Reader) : Prop :=
  Agrees x y r fun _ => True

abbrev Takes (x y : Reading α) (r : Reader) : Prop :=
  Agrees x y r fun r' => r'.rest.length < r.rest.length

namespace Agrees

theorem moves (hx : x.Moves) : Alike x x r :=
  ⟨rfl, hx r, trivial⟩

theorem pure (a : α) (h : post r) : Agrees (pure a) (pure a) r post :=
  ⟨rfl, .refl r, h⟩

theorem bind (hx : Agrees x y r mid)
    (hk : ∀ a r', Advances r r' → mid r' → Agrees (k a) (k' a) r' post) :
    Agrees (x >>= k) (y >>= k') r post := by
  have h := hk (x r).1 (x r).2 hx.advances hx.ensures
  have hrun : (y >>= k') r = k' (y r).1 (y r).2 := rfl
  refine ⟨?_, hx.advances.trans h.advances, h.ensures⟩
  rw [hrun, ← hx.same]
  exact h.same

/-- Both start with the same computation. -/
theorem after (hx : x.Moves) (hk : ∀ a r', Advances r r' → Agrees (k a) (k' a) r' post) :
    Agrees (x >>= k) (x >>= k') r post :=
  bind (moves hx) fun a r' h _ => hk a r' h

theorem get {k k' : Reader → Reading β} (h : Agrees (k r) (k' r) r post) :
    Agrees (MonadState.get >>= k) (MonadState.get >>= k') r post :=
  ⟨h.same, h.advances, h.ensures⟩

theorem skip {n : Nat} {k k' : Unit → Reading β} (h : Agrees (k ()) (k' ()) (r.skip n) post) :
    Agrees (Reading.skip n >>= k) (Reading.skip n >>= k') r post :=
  ⟨h.same, (Advances.skip r n).trans h.advances, h.ensures⟩

theorem spanFrom {start : Nat} {k k' : Span → Reading β}
    (h : Agrees (k (r.spanFrom start)) (k' (r.spanFrom start)) r post) :
    Agrees (Reading.spanFrom start >>= k) (Reading.spanFrom start >>= k') r post :=
  ⟨h.same, h.advances, h.ensures⟩

theorem eat (c : Char) {k k' : Bool → Reading β}
    (hyes : r.sees c → Agrees (k true) (k' true) (r.skip 1) post)
    (hno : ¬ r.sees c → Agrees (k false) (k' false) r post) :
    Agrees (Reading.eat c >>= k) (Reading.eat c >>= k') r post := by
  by_cases hsees : r.sees c
  · have hrun : ∀ k : Bool → Reading β, (Reading.eat c >>= k) r = k true (r.skip 1) :=
      fun k => bind_eq ((eat_eq r c).trans (if_pos hsees))
    have h := hyes hsees
    refine ⟨(hrun k).trans (h.same.trans (hrun k').symm), ?_, ?_⟩ <;> rw [hrun]
    · exact (Advances.skip r 1).trans h.advances
    · exact h.ensures
  · have hrun : ∀ k : Bool → Reading β, (Reading.eat c >>= k) r = k false r :=
      fun k => bind_eq ((eat_eq r c).trans (if_neg hsees))
    have h := hno hsees
    refine ⟨(hrun k).trans (h.same.trans (hrun k').symm), ?_, ?_⟩ <;> rw [hrun]
    · exact h.advances
    · exact h.ensures

theorem imp (h : Agrees x y r mid) (hpost : ∀ r', Advances r r' → mid r' → post r') :
    Agrees x y r post :=
  ⟨h.same, h.advances, hpost _ h.advances h.ensures⟩

theorem alike (h : Agrees x y r post) : Alike x y r :=
  h.imp fun _ _ _ => trivial

/-- No characters come back. -/
theorem within {n : Nat} (h : Agrees x y r post) (hlt : r.rest.length < n) :
    Agrees x y r fun r' => r'.rest.length < n :=
  h.imp fun _ hadv _ => Nat.lt_of_le_of_lt hadv.length_le hlt

end Agrees

theorem Takes.skip {n : Nat} {k k' : Unit → Reading β} (hne : r.rest ≠ []) (hn : 0 < n)
    (h : Alike (k ()) (k' ()) (r.skip n)) : Takes (Reading.skip n >>= k) (Reading.skip n >>= k') r :=
  Agrees.skip (h.within (length_skip_lt hne hn))

theorem Takes.bind (hx : Takes x y r)
    (hk : ∀ a r', Advances r r' → r'.rest.length < r.rest.length → Alike (k a) (k' a) r') :
    Takes (x >>= k) (y >>= k') r :=
  Agrees.bind hx fun a r' h hlt => (hk a r' h hlt).within hlt

end Reading

open Reading

variable {r : Reader} {n : Nat}

theorem plainCharacter_takes (c : Char) (hne : r.rest ≠ []) :
    Takes (plainCharacter c) (plainCharacter c) r :=
  ⟨rfl, .skip r 1, length_skip_lt hne Nat.one_pos⟩

theorem quotation_takes (hne : r.rest ≠ []) : Takes quotation quotation r :=
  Takes.skip hne (Nat.succ_pos 1) (.moves fun r => .skip r _)

theorem classAtom_takes (hne : r.rest ≠ []) : Takes classAtom classAtom r := by
  obtain ⟨c, cs, hr⟩ := List.exists_cons_of_ne_nil hne
  refine .get ?_
  dsimp only
  split
  · rename_i hhead
    simp [head?, peek?, hr] at hhead
  · refine Takes.skip hne Nat.one_pos (.get ?_)
    split
    · exact .moves (.bind (.expected _) fun _ => .pure _)
    · refine .moves (.ite (.bind (escapedClass_moves _ _) fun _ => .pure _) ?_)
      refine .ite (.bind (.skip 1) fun _ => .bind (.spanFrom _) fun _ => .pure _) ?_
      refine .ite (.bind (digits_moves 8 3) fun _ => .bind (.spanFrom _) fun _ => .pure _) ?_
      exact .bind (characterEscape_moves _) fun _ => .pure _
  · exact Takes.bind (plainCharacter_takes _ hne) fun _ _ _ _ => .moves (.pure _)

theorem classMember_takes (hne : r.rest ≠ []) : Takes classMember classMember r := by
  refine Takes.bind (classAtom_takes hne) fun a r₁ _ _ => ?_
  split
  · refine .get ?_
    split
    · refine .skip (.after classAtom_moves fun b _ _ => ?_)
      split
      · exact .moves (.pure _)
      · exact .moves (.pure _)
    · exact .moves (.pure _)
  · exact .moves (.pure _)

/-- The place after the bracket that closes a class, or after a class that nothing closes. -/
def ClassEnds (start stop : Reader) : Prop :=
  ∃ last, Advances start last ∧
    (last.sees ']' ∧ stop = last.skip 1 ∨
      last.rest = [] ∧ stop = last.report (.expected (.character ']') none) last.currentSpan)

theorem ClassEnds.after {start start' stop : Reader} (h : ClassEnds start' stop)
    (hadv : Advances start start') : ClassEnds start stop := by
  obtain ⟨last, hlast, hstop⟩ := h
  exact ⟨last, hadv.trans hlast, hstop⟩

/-- Readers of classes in brackets that do the same on less than `n` characters, and take one. -/
def BracketsAgree (n : Nat) (b b' : Reading CharacterClass) : Prop :=
  ∀ r, r.rest ≠ [] → r.rest.length < n → Takes b b' r

section Brackets

variable {b b' : Reading CharacterClass} (hb : BracketsAgree n b b')
include hb

theorem innerClass_takes (hne : r.rest ≠ []) (hlt : r.rest.length < n) :
    Takes (innerClass b) (innerClass b') r := by
  refine .get ?_
  split
  · rename_i hposix
    exact Takes.skip hne (posix_length hposix)
      (.moves (.bind (.spanFrom _) fun _ => .pure _))
  · exact Takes.bind (hb r hne hlt) fun _ _ _ _ => .moves (.pure _)

/-- Members are read to the end of their class. Each round takes a character, so that no bound on
the rounds that is more than the number of characters is reached. -/
theorem classMembers_agrees {rounds rounds' : Nat} (draft : ClassDraft) (hlt : r.rest.length < n)
    (h : r.rest.length < rounds) (h' : r.rest.length < rounds') :
    Agrees (classMembers b rounds draft) (classMembers b' rounds' draft) r (ClassEnds r) := by
  induction rounds generalizing rounds' r draft with
  | zero => exact (Nat.not_lt_zero _ h).elim
  | succ rounds ih =>
    obtain ⟨rounds', rfl⟩ := Nat.exists_eq_succ_of_ne_zero (Nat.ne_zero_of_lt h')
    refine .after skipClassBlanks_moves fun _ r₁ h₁ => .get ?_
    have hle := h₁.length_le
    have hmore : ∀ (d : ClassDraft) (r₂ : Reader), Advances r₁ r₂ →
        r₂.rest.length < r₁.rest.length →
          Agrees (classMembers b rounds d) (classMembers b' rounds' d) r₂ (ClassEnds r) :=
      fun d r₂ h₂ hlt₂ => (ih d (by omega) (by omega) (by omega)).imp
        fun _ _ hends => hends.after (h₁.trans h₂)
    dsimp only
    split
    · rename_i hhead
      have hrest : r₁.rest = [] := by simpa [head?, peek?] using hhead
      refine ⟨rfl, .report .., r₁, h₁, .inr ⟨hrest, ?_⟩⟩
      rw [← hhead]
      rfl
    · rename_i hhead
      exact ⟨rfl, .skip r₁ 1, r₁, h₁, .inl ⟨decide_eq_true hhead, rfl⟩⟩
    all_goals
      have hne : r₁.rest ≠ [] := rest_ne_nil_of_head ‹r₁.head? = some _›
    · exact .skip (.get (hmore _ _ (.skip r₁ 2) (length_skip_lt hne (Nat.succ_pos 1))))
    · exact .bind (innerClass_takes hb hne (by omega)) fun _ => hmore _
    · exact .bind (quotation_takes hne) fun _ => hmore _
    · exact .skip (hmore _ _ (.skip r₁ 2) (length_skip_lt hne (Nat.succ_pos 1)))
    · exact .bind (classMember_takes hne) fun _ => hmore _

theorem bracketsWith_agrees : BracketsAgree (n + 1) (bracketsWith b) (bracketsWith b') := by
  intro r hne hlt
  have hskip := length_skip_lt hne Nat.one_pos
  refine .get (Takes.skip hne Nat.one_pos ?_)
  refine .after (.eat _) fun negated r₁ h₁ => .get (.after leadingBracket_moves fun first r₂ h₂ => ?_)
  have hle₁ := h₁.length_le
  have hle₂ := h₂.length_le
  refine .get (.bind (classMembers_agrees hb _ (by omega) (Nat.lt_succ_self _)
    (Nat.lt_succ_self _)) fun result r₃ _ _ => ?_)
  exact .get (.moves (.pure _))

end Brackets

end PhpSyntax.Pattern
