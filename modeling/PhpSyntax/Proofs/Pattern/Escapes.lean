import PhpSyntax.Pattern.Quantified
import PhpSyntax.Proofs.Pattern.Reading

namespace PhpSyntax.Pattern

open Reading Reader

variable {r : Reader} {R : Reader → Reader → Prop} [ReadingOrder R]

theorem digits_moves (base limit : Nat) : MovesIn R (digits base limit) :=
  fun r => ReadingOrder.skip r _

theorem hexEscape_moves : MovesIn R hexEscape := by
  refine .bind (.eat _) fun braced => .ite (.bind (digits_moves 16 2) fun _ => .pure _) ?_
  refine .bind (.takeRun _) fun written => .ite (.bind (.expected _) fun _ => .pure _) ?_
  exact .bind (.expect _) fun _ => .ite (.pure _) (.pure _)

theorem unicodeEscape_moves : MovesIn R unicodeEscape := by
  refine .getSkip _ fun r => .ite (.bind (.expected _) fun _ => .pure _) ?_
  split
  · exact .bind (.skip 6) fun _ => .pure _
  · exact .pure _

theorem controlEscape_moves (start : Nat) : MovesIn R (controlEscape start) := by
  refine .bind .next? fun c => ?_
  split
  · exact .ite (.pure _) (.bind (.reportFrom _ _) fun _ => .pure _)
  · exact .bind (.reportFrom _ _) fun _ => .pure _

theorem codePoint_moves (letter : Char) (start : Nat) : MovesIn R (codePoint letter start) := by
  unfold codePoint
  split
  · exact .pure _
  · refine .ite (.bind (digits_moves 8 2) fun _ => .pure _) (.ite hexEscape_moves ?_)
    refine .ite unicodeEscape_moves (.ite (controlEscape_moves start) (.ite (.pure _) ?_))
    exact .bind (.reportFrom _ _) fun _ => .pure _

theorem characterEscape_moves (start : Nat) : MovesIn R (characterEscape start) := by
  refine .bind .next? fun letter => ?_
  split
  · exact .pure _
  · refine .bind (codePoint_moves _ start) fun code => ?_
    split
    · exact .bind (.spanFrom start) fun _ => .pure _
    · exact .pure _

theorem hexEscape_does : Does r hexEscape fun code _ => code.isSome := by
  refine .moves (.eat _) fun braced r' _ => ?_
  split
  · exact .moves (digits_moves 16 2) fun _ _ _ => .pure fun _ => rfl
  · refine .moves (.takeRun _) fun written r' _ => ?_
    split
    · exact .expected (.pure _)
    · refine .bind (.expect _) fun found r' _ => ?_
      split
      · exact .pure fun _ _ => rfl
      · exact .pure fun _ h => absurd h ‹_›

theorem unicodeEscape_does : Does r unicodeEscape fun code _ => code.isSome := by
  refine .get (.set (.skip r _) ?_)
  split
  · exact .expected (.pure _)
  · split
    · exact .skip (.pure fun _ => rfl)
    · exact .pure fun _ => rfl

theorem controlEscape_does (start : Nat) : Does r (controlEscape start) fun code _ => code.isSome := by
  refine .moves .next? fun c r' _ => ?_
  split
  · split
    · exact .pure fun _ => rfl
    · exact .reportFrom (.pure _)
  · exact .reportFrom (.pure _)

theorem codePoint_does (letter : Char) (start : Nat) :
    Does r (codePoint letter start) fun code _ => code.isSome := by
  unfold codePoint
  split
  · exact .pure fun _ => rfl
  split
  · exact .moves (digits_moves 8 2) fun _ _ _ => .pure fun _ => rfl
  split
  · exact hexEscape_does
  split
  · exact unicodeEscape_does
  split
  · exact controlEscape_does start
  split
  · exact .pure fun _ => rfl
  · exact .reportFrom (.pure _)

/-- An escape without a fault stands for a character, which was written since `start`. -/
theorem characterEscape_does (start : Nat) (hr : r.rest ≠ []) :
    Does r (characterEscape start) fun c r' => ∃ code, c = some ⟨code, r'.spanFrom start⟩ := by
  obtain ⟨c, cs, hr⟩ := List.exists_cons_of_ne_nil hr
  refine .next? ?_
  rw [show r.head? = some c.char by simp [head?, peek?, hr]]
  refine .bind (codePoint_does c.char start) fun code r' _ => ?_
  split
  · exact .spanFrom (.pure fun _ _ => ⟨_, rfl⟩)
  · exact .pure fun _ h => by simp at h

theorem property_moves : MovesIn R property := by
  refine .bind (.eat _) fun braced => ?_
  refine .ite ?_ ?_
  · exact .bind (.takeRun _) fun _ => .bind (.expect _) fun _ => .pure _
  · refine .bind .next? fun c => ?_
    split
    · exact .pure _
    · exact .bind (.expected _) fun _ => .pure _

theorem escapedClass_does (start : Nat) (letter : Char) :
    Does r (escapedClass start letter) fun e r' => e.span = r'.spanFrom start := by
  refine .skip ?_
  split
  · exact .moves property_moves fun _ _ _ => .spanFrom (.pure fun _ => rfl)
  · exact .moves (.pure none) fun _ _ _ => .spanFrom (.pure fun _ => rfl)

theorem escapedClass_moves (start : Nat) (letter : Char) : MovesIn R (escapedClass start letter) := by
  refine .bind (.skip 1) fun _ => .ite ?_ ?_
  · exact .bind property_moves fun _ => .bind (.spanFrom start) fun _ => .pure _
  · exact .bind (.pure none) fun _ => .bind (.spanFrom start) fun _ => .pure _

theorem quotation_moves : MovesIn R quotation :=
  .bind (.skip 2) fun _ r => ReadingOrder.skip r _

theorem bounds_moves : MovesIn R bounds := by
  refine .bind .get fun r => ?_
  split
  · exact .pure _
  · exact .bind (.skip _) fun _ => .ite (.bind (.reportFrom _ _) fun _ => .pure _) (.pure _)

theorem repetitionBounds_moves : MovesIn R repetitionBounds := by
  refine .bind .get fun r => ?_
  split
  · exact .bind (.skip 1) fun _ => .pure _
  · exact .bind (.skip 1) fun _ => .pure _
  · exact .bind (.skip 1) fun _ => .pure _
  · exact bounds_moves

theorem greediness_moves : MovesIn R greediness := by
  refine .bind (.eat _) fun _ => .ite (.pure _) ?_
  exact .bind (.eat _) fun _ => .ite (.pure _) (.pure _)

theorem quantifier_moves : MovesIn R quantifier? := by
  refine .bind repetitionBounds_moves fun limits => ?_
  split
  · exact .bind greediness_moves fun _ => .pure _
  · exact .pure _

theorem quantified_moves (part : Regex) : MovesIn R (quantified part) := by
  refine .bind .skipExtended fun _ => .bind quantifier_moves fun q => ?_
  split
  · exact .bind (.spanFrom _) fun _ => .pure _
  · exact .pure _

theorem closedReference_moves (start : Nat) (close : Char) :
    MovesIn R (closedReference start close) := by
  refine .bind (.skip 1) fun _ => .bind (.takeRun _) fun _ => .bind (.expect _) fun _ => ?_
  exact .ite (.bind (.spanFrom start) fun _ => .pure _) (.pure _)

theorem groupReference_moves (start : Nat) (letter : Char) :
    MovesIn R (groupReference start letter) := by
  refine .bind (.skip 1) fun _ => .bind .get fun r => ?_
  split
  · exact closedReference_moves start _
  · exact closedReference_moves start _
  · exact closedReference_moves start _
  · refine .ite (.bind (.skip 1) fun _ => ?_) (.bind (.expected _) fun _ => .pure _)
    exact .bind (.takeRun _) fun _ => .bind (.spanFrom start) fun _ => .pure _
  · exact .bind (.expected _) fun _ => .pure _

theorem escape_moves : MovesIn R escape := by
  refine .bind .get fun r => .bind (.skip 1) fun _ => .bind .get fun r' => ?_
  split
  · exact .bind (.expected _) fun _ => .pure _
  · refine .ite (.bind (escapedClass_moves _ _) fun _ => .pure _) ?_
    split
    · exact .bind (.skip 1) fun _ => .bind (.spanFrom _) fun _ => .pure _
    · refine .ite (.bind (.takeRun _) fun _ => .bind (.spanFrom _) fun _ => .pure _) ?_
      refine .ite (groupReference_moves _ _) (.ite (.bind (.skip 1) fun _ => .pure _) ?_)
      exact .bind (characterEscape_moves _) fun _ => .pure _

def Regex.isPlain : Regex → Bool
  | .character _ | .dot _ | .boundary .. | .backReference .. | .escapedClass _
  | .group (.nonCapturing none) none _ => true
  | _ => false

def Regex.isLeaf : Regex → Bool
  | .character _ | .dot _ | .boundary .. | .backReference .. | .escapedClass _ => true
  | _ => false

theorem Regex.isPlain_of_isLeaf {tree : Regex} (h : tree.isLeaf) : tree.isPlain := by
  cases tree <;> simp_all [isLeaf, isPlain]

section Leaf

variable {clean : Prop}

theorem closedReference_leaf (start : Nat) (close : Char) :
    Forms clean (closedReference start close) fun a => ∀ t ∈ a, t.isLeaf := by
  refine .moves (.skip 1) fun _ => .moves (.takeRun _) fun _ => .moves (.expect _) fun _ => ?_
  split
  · exact .moves (.spanFrom start) fun _ => .pure (by simp [Regex.isLeaf])
  · exact .pure nofun

theorem groupReference_leaf (start : Nat) (letter : Char) :
    Forms clean (groupReference start letter) fun a => ∀ t ∈ a, t.isLeaf := by
  refine .moves (.skip 1) fun _ => .get fun r => ?_
  split
  · exact closedReference_leaf start _
  · exact closedReference_leaf start _
  · exact closedReference_leaf start _
  · split
    · exact .moves (.skip 1) fun _ => .moves (.takeRun _) fun _ => .moves (.spanFrom start) fun _ =>
        .pure (by simp [Regex.isLeaf])
    · exact .moves (.expected _) fun _ => .pure nofun
  · exact .moves (.expected _) fun _ => .pure nofun

theorem escape_leaf : Forms clean escape fun a => ∀ t ∈ a, t.isLeaf := by
  refine .get fun r => .moves (.skip 1) fun _ => .get fun r' => ?_
  split
  · exact .moves (.expected _) fun _ => .pure nofun
  split
  · exact .moves (escapedClass_moves _ _) fun _ => .pure (by simp [Regex.isLeaf])
  split
  · exact .moves (.skip 1) fun _ => .moves (.spanFrom _) fun _ => .pure (by simp [Regex.isLeaf])
  split
  · exact .moves (.takeRun _) fun _ => .moves (.spanFrom _) fun _ => .pure (by simp [Regex.isLeaf])
  split
  · exact groupReference_leaf _ _
  split
  · exact .moves (.skip 1) fun _ => .pure nofun
  · refine .moves (characterEscape_moves _) fun c => .pure fun t ht => ?_
    obtain ⟨c, -, rfl⟩ := Option.map_eq_some_iff.mp ht
    rfl

theorem escape_plain : Forms clean escape fun a => ∀ t ∈ a, t.isPlain :=
  escape_leaf.imp fun _ h t ht => Regex.isPlain_of_isLeaf (h t ht)

end Leaf

end PhpSyntax.Pattern
