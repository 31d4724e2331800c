import Mathlib.Data.List.Chain
import PhpSyntax.Proofs.Grammar.Renamed.Tokens

namespace PhpSyntax.Grammar

def infixOperators : List Punctuator :=
  [.coalesce, .orOr, .andAnd, .caret, .equalEqual, .notEqual, .lessGreater, .strictEqual,
   .strictNotEqual, .spaceship, .lessThan, .greaterThan, .lessEqual, .greaterEqual, .dot,
   .shiftLeft, .shiftRight, .star, .slash, .percent]

def isInfix (t : Token) : Bool :=
  infixOperators.any t.isPunctuator

namespace Cursor

variable {c d e : Cursor}

def seesInfix (c : Cursor) : Bool :=
  isInfix c.current

theorem sees_unique {p q : Punctuator} (hp : c.sees p = true) (hq : c.sees q = true) : p = q := by
  have find_spelling :
      ∀ p : Punctuator, Punctuator.all.find? (·.isSpelled p.spelling) = some p := by
    intro p
    cases p <;> decide
  simp only [sees, Token.isPunctuator, Punctuator.isSpelled, Bool.and_eq_true,
    decide_eq_true_eq] at hp hq
  have hpq : p.spelling = q.spelling := hp.2.symm.trans hq.2
  have := find_spelling p
  rwa [hpq, find_spelling q, Option.some_inj, eq_comm] at this

theorem not_infix_of_sees {p : Punctuator} (h : c.sees p = true)
    (hp : infixOperators.contains p = false) : c.seesInfix = false := by
  rw [seesInfix, isInfix, List.any_eq_false]
  intro q hq hs
  obtain rfl := sees_unique h hs
  rw [List.contains_eq_mem, decide_eq_false_iff_not] at hp
  exact hp hq

theorem not_infix_of_kind (h : c.current.kind ≠ .punctuator) : c.seesInfix = false := by
  simp [seesInfix, isInfix, Token.isPunctuator, h]

theorem not_infix_of_seesKind {k : TokenKind} (h : c.seesKind k = true)
    (hk : k ≠ .punctuator) : c.seesInfix = false := by
  have hc : c.current.kind = k := by simpa [seesKind] using h
  exact not_infix_of_kind (hc ▸ hk)

theorem not_infix_of_seesKeyword {k : Keyword} (h : c.seesKeyword k = true) :
    c.seesInfix = false := by
  simp only [seesKeyword, Token.isKeyword, Bool.and_eq_true, decide_eq_true_eq] at h
  exact not_infix_of_kind (by simp [h.1])

theorem not_infix_of_seesAnyKeyword {ks : List Keyword} (h : c.seesAnyKeyword ks = true) :
    c.seesInfix = false := by
  obtain ⟨k, -, hk⟩ := List.any_eq_true.mp h
  exact not_infix_of_seesKeyword hk

theorem not_infix_of_seesAny {ps : List Punctuator} (h : c.seesAny ps = true)
    (hps : ∀ p ∈ ps, infixOperators.contains p = false) : c.seesInfix = false := by
  obtain ⟨p, hp, hs⟩ := List.any_eq_true.mp h
  exact not_infix_of_sees hs (hps p hp)

theorem not_infix_of_seesStatementEnd (h : c.seesStatementEnd = true) : c.seesInfix = false := by
  simp only [seesStatementEnd, Bool.or_eq_true] at h
  exact h.elim (fun hs => not_infix_of_sees hs rfl) fun hk => not_infix_of_seesKind hk (by decide)

/-- The place `d` is reached from `c` token by token, and never from one infix operator to
another. -/
inductive Moves (c : Cursor) : Cursor → Prop
  | refl : c.Moves c
  | next {d : Cursor} : c.Moves d → (d.seesInfix = true → d.next.seesInfix = false) →
      c.Moves d.next

namespace Moves

theorem trans (h : c.Moves d) (h' : d.Moves e) : c.Moves e := by
  induction h' with
  | refl => exact h
  | next _ hi ih => exact ih.next hi

/-- No two tokens in a row are infix operators, up to the place that was reached. -/
theorem isChain (h : c.Moves d) : ∃ between, c.stream = between ++ d.stream ∧
    (∀ t ∈ between, t.kind ≠ .eof) ∧
    (between ++ [d.current]).IsChain fun t u => ¬ (isInfix t = true ∧ isInfix u = true) := by
  induction h with
  | refl => exact ⟨[], rfl, nofun, .singleton _⟩
  | @next d _ hi ih =>
    obtain ⟨between, hs, hb, hchain⟩ := ih
    obtain hd | ⟨hk, hd⟩ := d.next_cases
    · rw [hd]
      exact ⟨between, hs, hb, hchain⟩
    · refine ⟨between ++ [d.current], by rw [hs, hd, List.append_assoc]; rfl, ?_, ?_⟩
      · exact List.forall_mem_append.mpr ⟨hb, by simpa using hk⟩
      rw [List.append_assoc]
      refine List.isChain_append_cons_cons.mpr ⟨hchain, ?_, .singleton _⟩
      rintro ⟨ht, hu⟩
      exact Bool.false_ne_true ((hi ht).symm.trans hu)

theorem leads (h : c.Moves d) : c.Leads d := by
  obtain ⟨between, hs, hb, -⟩ := h.isChain
  exact ⟨between, hs, hb⟩

end Moves

end Cursor

end PhpSyntax.Grammar
