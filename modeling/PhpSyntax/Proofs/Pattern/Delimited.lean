import Mathlib.Data.Option.Basic
import PhpSyntax.Pattern.Delimited
import PhpSyntax.Proofs.Source.Position

namespace PhpSyntax.Pattern

theorem splitAtLast_eq {c : Char} {cs before after : List Char}
    (h : splitAtLast? c cs = some (before, after)) : cs = before ++ c :: after := by
  induction cs generalizing before after with
  | nil => simp [splitAtLast?] at h
  | cons d ds ih =>
    unfold splitAtLast? at h
    split at h
    · rename_i hds
      cases h
      rw [ih hds]
      rfl
    · split at h
      · cases h
        subst c
        rfl
      · simp at h

namespace DelimitedPattern

theorem head_of_quote {cs : List Char} {quote : Literal.Quote}
    (h : Literal.Quote.ofHead? cs = some quote) : cs.head? = some quote.mark := by
  unfold Literal.Quote.ofHead? at h
  split at h
  · cases h
    assumption
  · cases h
    assumption
  · simp at h

theorem literalToken_eq {tree : Tree} {token : Token} {quote : Literal.Quote}
    (h : literalToken? tree = some (token, quote)) :
    tree = .leaf .regularStringLiteral token ∧ 2 ≤ token.text.toList.length ∧
      token.text.toList.head? = some quote.mark := by
  unfold literalToken? at h
  obtain ⟨t, ht, h⟩ := Option.bind_eq_some_iff.mp h
  obtain ⟨⟨⟩, hguard, h⟩ := Option.bind_eq_some_iff.mp h
  obtain ⟨q, hq, h⟩ := Option.bind_eq_some_iff.mp h
  cases h
  cases tree with
  | node k cs => simp [Tree.token?] at ht
  | leaf k t =>
    cases ht
    obtain ⟨hkind, hlen⟩ := Bool.and_eq_true_iff.mp ((Option.guard_eq_some' ()).mp hguard)
    obtain rfl : k = .regularStringLiteral := of_decide_eq_true hkind
    exact ⟨rfl, of_decide_eq_true hlen, head_of_quote hq⟩

/-- A text of at least two characters without its first and its last. -/
theorem eq_cons_dropLast {cs : List Char} (h : 2 ≤ cs.length) :
    ∃ first last, cs = first :: (cs.tail.dropLast ++ [last]) := by
  cases cs with
  | nil => simp at h
  | cons first rest =>
    have hne : rest ≠ [] := by
      rintro rfl
      simp at h
    exact ⟨first, rest.getLast hne, by rw [List.tail_cons, List.dropLast_concat_getLast]⟩

structure WrittenIn (p : DelimitedPattern) (token : Token) (blanks : List Char) (last : Char) :
    Prop where
  text : token.text.toList = p.quote.mark :: (blanks ++ p.openDelimiter ::
    (p.text.toList ++ p.closeDelimiter :: (p.modifiers.toList ++ [last])))
  blank : ∀ c ∈ blanks, Text.isWhiteSpace c
  delimiter : isDelimiter p.openDelimiter
  close : p.closeDelimiter = closingDelimiter p.openDelimiter
  start : p.start = token.start.advance (p.quote.mark :: (blanks ++ [p.openDelimiter]))

theorem ofLiteral_writtenIn {tree : Tree} {p : DelimitedPattern} (h : ofLiteral tree = .ok p) :
    ∃ token blanks last, tree = .leaf .regularStringLiteral token ∧
      p.WrittenIn token blanks last := by
  unfold ofLiteral at h
  split at h
  · simp at h
  · rename_i token quote htoken
    obtain ⟨htree, hlen, hhead⟩ := literalToken_eq htoken
    obtain ⟨first, last, hcs⟩ := eq_cons_dropLast hlen
    obtain rfl : first = quote.mark := by
      rw [hcs] at hhead
      exact Option.some.inj hhead
    dsimp only at h
    split at h
    · simp at h
    · rename_i delimiter rest hrest
      split at h
      · simp at h
      · rename_i text modifiers hsplit
        cases h
        have hbody : token.text.toList.tail.dropLast =
            token.text.toList.tail.dropLast.takeWhile Text.isWhiteSpace ++ delimiter :: rest := by
          rw [← hrest, List.takeWhile_append_dropWhile]
        have hblank : ∀ c ∈ token.text.toList.tail.dropLast.takeWhile Text.isWhiteSpace,
            Text.isWhiteSpace c := fun c hc =>
          List.all_eq_true.mp List.all_takeWhile c hc
        generalize token.text.toList.tail.dropLast.takeWhile Text.isWhiteSpace = blanks
          at hbody hblank
        split at hsplit
        · rename_i hdelimiter
          have htext := splitAtLast_eq hsplit
          have htoken : token.text.toList =
              quote.mark :: (blanks ++ [delimiter]) ++ (rest ++ [last]) := by
            rw [hcs, hbody]
            simp
          refine ⟨token, blanks, last, htree, by simp [htoken, htext], hblank, hdelimiter, rfl, ?_⟩
          refine congrArg token.start.advance ?_
          rw [Token.length, htoken]
          refine List.take_left' ?_
          simp
          omega
        · simp at hsplit

theorem positionAt_eq {p : DelimitedPattern} {lead : List Char} (hstart : p.start = .after lead)
    {i : Nat} (hi : i ≤ p.text.toList.length) (tail : List Char) :
    p.positionAt i = .after ((lead ++ (p.text.toList ++ tail)).take (lead.length + i)) := by
  rw [positionAt, hstart, ← Position.after_append, List.take_length_add_append,
    List.take_append_of_le_length hi]

end DelimitedPattern

end PhpSyntax.Pattern
