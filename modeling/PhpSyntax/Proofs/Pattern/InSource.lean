import PhpSyntax.Proofs.Lexer.Offsets
import PhpSyntax.Proofs.Pattern.Delimited

namespace PhpSyntax.Pattern

open Lexer (positionIn)

def blanksIn (literal : Token) : Nat :=
  Lexer.runLength Text.isWhiteSpace literal.text.toList.tail

/-- The text of a pattern is what stands between its delimiters in a literal at `offset`, and its
stretches have the positions of the source. -/
structure DelimitedPattern.ExactIn (cs : List Char) (literal : Token) (offset : Nat)
    (p : DelimitedPattern) : Prop where
  delimiter : cs.extract (offset + 1 + blanksIn literal) (offset + 2 + blanksIn literal) =
    [p.openDelimiter]
  text : p.text.toList = cs.extract (offset + 2 + blanksIn literal)
    (offset + 2 + blanksIn literal + p.text.toList.length)
  location : ∀ i j, i ≤ j → j ≤ p.text.toList.length → p.locationOf ⟨i, j⟩ =
    ⟨positionIn cs (offset + 2 + blanksIn literal + i),
      positionIn cs (offset + 2 + blanksIn literal + j)⟩

theorem isWhiteSpace_of_isDelimiter {c : Char} (h : isDelimiter c) : Text.isWhiteSpace c = false := by
  simp only [isDelimiter, Bool.not_eq_true', Bool.or_eq_false_iff] at h
  exact h.1.2

namespace DelimitedPattern.WrittenIn

variable {p : DelimitedPattern} {token : Token} {blanks : List Char} {last : Char}

theorem blanksIn_eq (h : p.WrittenIn token blanks last) : blanksIn token = blanks.length := by
  rw [blanksIn, Lexer.runLength, h.text, List.tail_cons, List.takeWhile_append_of_pos h.blank,
    List.takeWhile_cons_of_neg, List.append_nil]
  rw [isWhiteSpace_of_isDelimiter h.delimiter]
  exact Bool.false_ne_true

theorem exactIn (h : p.WrittenIn token blanks last) {cs : List Char} {o : Nat}
    (hstands : token.StandsAt cs o) : p.ExactIn cs token o := by
  let front := p.quote.mark :: (blanks ++ [p.openDelimiter])
  let rest := p.closeDelimiter :: (p.modifiers.toList ++ [last])
  have htext : token.text.toList = front ++ (p.text.toList ++ rest) := by
    simp [front, rest, h.text]
  have hstart : o + 2 + blanksIn token = o + front.length := by
    simp only [front, h.blanksIn_eq, List.length_cons, List.length_append, List.length_nil]
    omega
  refine ⟨?_, ?_, ?_⟩
  · have hdelimiter : token.text.toList =
        (p.quote.mark :: blanks) ++ ([p.openDelimiter] ++ (p.text.toList ++ rest)) := by
      simp [rest, h.text]
    have hquote : o + 1 + blanksIn token = o + (p.quote.mark :: blanks).length := by
      rw [h.blanksIn_eq, List.length_cons]
      omega
    rw [hquote, show o + 2 + blanksIn token = o + 1 + blanksIn token + 1 by omega, hquote]
    exact hstands.part hdelimiter
  · rw [hstart]
    exact (hstands.part htext).symm
  · have hposition : ∀ i ≤ p.text.toList.length,
        p.positionAt i = positionIn cs (o + front.length + i) := by
      intro i hi
      have hsplit : token.text.toList =
          (front ++ p.text.toList.take i) ++ (p.text.toList.drop i ++ rest) := by
        rw [htext, List.append_assoc, ← List.append_assoc (List.take i _), List.take_append_drop]
      have hlen : o + front.length + i = o + (front ++ p.text.toList.take i).length := by
        rw [List.length_append, List.length_take_of_le hi, Nat.add_assoc]
      rw [hlen, hstands.positionIn_eq hsplit, Position.advance_append, positionAt, h.start]
    intro i j hij hj
    rw [hstart, locationOf, Nat.max_eq_left hij, hposition i (Nat.le_trans hij hj), hposition j hj]

end DelimitedPattern.WrittenIn

/-- A stretch of a pattern is reported where it stands in the source, whatever line ends the
literal contains. -/
theorem locationOf_exact {options : Lexer.LexerOptions} {source : String} {token : Token}
    (htoken : token ∈ (Lexer.tokenizeWith options source).tokens) {p : DelimitedPattern}
    (hp : DelimitedPattern.ofLiteral (.leaf .regularStringLiteral token) = .ok p) :
    (∃ o, token.StandsAt source.toList o) ∧
      ∀ o, token.StandsAt source.toList o → p.ExactIn source.toList token o := by
  obtain ⟨t, blanks, last, htree, hwritten⟩ := DelimitedPattern.ofLiteral_writtenIn hp
  obtain rfl : token = t := by simpa using htree
  exact ⟨Lexer.tokenizeWith_standsAt htoken, fun o => hwritten.exactIn⟩

/-- A literal over three lines, behind a byte order mark. -/
theorem locationOf_exact_lines :
    let source := "\ufeff<?php\nf(\"\n\t/a\n[é]/i\");"
    let token : Token := ⟨.doubleQuotedString, "\"\n\t/a\n[é]/i\"", ⟨2, 2⟩, []⟩
    let p : DelimitedPattern := ⟨"a\n[é]", .double, '/', '/', "i", ⟨3, 2⟩⟩
    token.StandsAt source.toList 9 ∧ p.locationOf ⟨1, 4⟩ = ⟨positionIn source.toList 14,
      positionIn source.toList 17⟩ := by
  intro source token p
  have htoken : token ∈ (Lexer.tokenizeWith ⟨false⟩ source).tokens := by decide +kernel
  have hp : DelimitedPattern.ofLiteral (.leaf .regularStringLiteral token) = .ok p := by
    decide +kernel
  have hstands : token.StandsAt source.toList 9 :=
    ⟨by decide, by decide, by decide +kernel, by decide +kernel⟩
  have hblanks : blanksIn token = 2 := by decide +kernel
  have hexact := ((locationOf_exact htoken hp).2 9 hstands).location 1 4 (by decide) (by decide)
  rw [hblanks] at hexact
  exact ⟨hstands, hexact⟩

end PhpSyntax.Pattern
