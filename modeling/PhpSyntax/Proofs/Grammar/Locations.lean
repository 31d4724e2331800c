import PhpSyntax.Proofs.Grammar.File
import PhpSyntax.Proofs.Lexer.Tokens
import PhpSyntax.Proofs.Tree.Locations

namespace PhpSyntax.Grammar

variable {source : String} {tree : Tree}

/-- The tree of a source holds its tokens, each of which ends before the next one starts. -/
theorem parseSource_inOrder (h : parseSource source = .ok tree) : tree.InOrder := by
  obtain ⟨-, hparse⟩ := parseSource_ok h
  obtain ⟨before, stop, after, hts, -, -, htokens, -⟩ := parse_reads hparse
  have hordered := Lexer.tokenizeWith_ordered ⟨false⟩ source
  rw [show (Lexer.tokenizeWith ⟨false⟩ source).tokens = _ from hts, List.append_cons] at hordered
  rw [Tree.InOrder, htokens]
  exact hordered.sublist (List.sublist_append_left _ _)

/-- The locations in the tree of a source are nested like the trees, and ordered like them. -/
theorem parseSource_nests (h : parseSource source = .ok tree) :
    ∀ n ∈ tree.descendants, n.Nests := by
  rw [Tree.descendants_eq]
  exact fun n hn => ((parseSource_inOrder h).of_mem hn).nests

/-- A string over two lines, and a list without elements, which has no place. -/
theorem parseSource_nests_lines :
    let source := "<?php\nf('a\n b', g());"
    ∃ tree, parseSource source = .ok tree ∧ (∃ n ∈ tree.preorder, n.location? = none) ∧
      (∃ n ∈ tree.preorder, n.location? = some ⟨⟨2, 2⟩, ⟨3, 3⟩⟩) ∧
      ∀ n ∈ tree.descendants, n.Nests := by
  intro source
  have h : (parseSource source).toOption.any fun tree =>
      (tree.preorder.any (·.location?.isNone)) &&
        tree.preorder.any (·.location? = some ⟨⟨2, 2⟩, ⟨3, 3⟩⟩) := by
    decide +kernel
  obtain ⟨tree, htree, h⟩ := (Option.any_eq_true _ _).mp h
  simp only [Bool.and_eq_true, List.any_eq_true, Option.isNone_iff_eq_none,
    decide_eq_true_eq] at h
  have htree : parseSource source = .ok tree := by
    cases hp : parseSource source <;> simp_all [Except.toOption]
  exact ⟨tree, htree, h.1, h.2, parseSource_nests htree⟩

end PhpSyntax.Grammar
