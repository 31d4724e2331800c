import PhpSyntax.Proofs.Printer.Gaps
import PhpSyntax.Proofs.Printer.Readings

namespace PhpSyntax

section Normalised

variable {gap : List Char}

theorem mem_normalise {c : Char} (h : c ∈ normalise gap) : c = '\n' ∨ c = ' ' := by
  simp only [normalise, List.mem_append, List.mem_replicate] at h
  exact h.imp And.right And.right

theorem feed_mem_normalise : '\n' ∈ normalise gap ↔ '\n' ∈ gap := by
  simp [normalise, List.count_eq_zero]

theorem column_normalise (gap : List Char) :
    ((normalise gap).reverse.takeWhile (· ≠ '\n')).length =
      (gap.reverse.takeWhile (· ≠ '\n')).length := by
  rw [normalise, List.reverse_append, List.reverse_replicate, List.reverse_replicate,
    Lexer.takeWhile_append_of, List.length_replicate]
  · intro c hc
    obtain ⟨-, rfl⟩ := List.mem_replicate.mp hc
    rfl
  · cases gap.count '\n' <;> rfl

/-- A gap leads to the same position when it is printed. -/
theorem advance_normalise (p : Position) (gap : List Char) :
    p.advance (normalise gap) = p.advance gap := by
  have hline : (p.advance (normalise gap)).line = (p.advance gap).line := by
    simp [Position.advance_line, normalise, List.count_replicate]
  have hcolumn : (p.advance (normalise gap)).column = (p.advance gap).column := by
    by_cases h : '\n' ∈ gap
    · rw [Position.advance_column_of_mem p h,
        Position.advance_column_of_mem p (feed_mem_normalise.mpr h), column_normalise]
    · rw [Position.advance_column p gap h, normalise_of_not_mem h,
        Position.advance_column p _ (by simp), List.length_replicate]
  calc p.advance (normalise gap)
      = ⟨(p.advance (normalise gap)).line, (p.advance (normalise gap)).column⟩ := rfl
    _ = p.advance gap := by rw [hline, hcolumn]

theorem length_normalise_le (gap : List Char) : (normalise gap).length ≤ gap.length := by
  rw [normalise, List.length_append, List.length_replicate, List.length_replicate]
  induction gap using List.reverseRecOn with
  | nil => exact Nat.le_refl 0
  | append_singleton gap c ih =>
    by_cases hc : c = '\n'
    · have := List.count_le_length (a := '\n') (l := gap)
      simp [hc]
      omega
    · simp [hc] at ih ⊢
      omega

/-- What is printed for a gap starts with a line feed wherever the gap has one. -/
theorem normalise_cons (a : Char) (gap : List Char) : ∃ b printed,
    normalise (a :: gap) = b :: printed ∧ (b = '\n' ∨ b = ' ' ∧ a ≠ '\n') := by
  by_cases h : '\n' ∈ a :: gap
  · obtain ⟨n, hn⟩ := Nat.exists_eq_add_one.mpr (List.count_pos_iff.mpr h)
    rw [normalise, hn]
    exact ⟨_, _, rfl, .inl rfl⟩
  · rw [normalise_of_not_mem h]
    exact ⟨_, _, rfl, .inr ⟨rfl, fun ha => h (ha ▸ List.mem_cons_self)⟩⟩

end Normalised

namespace Lexer

def respaced (pending : List Char) : List Segment → List Char
  | [] => normalise pending
  | g :: gs =>
    if g.reading.piece.isKept then normalise pending ++ (g.chars ++ respaced g.skipped gs)
    else respaced (pending ++ g.whole) gs

theorem weave_normalise (pos : Position) (pending : List Char) (gs : List Segment) :
    weave ((gapsFrom pending gs).map normalise) ((piecesFrom pos gs).map Prod.fst) =
      respaced pending gs := by
  induction gs generalizing pos pending with
  | nil => simp [gapsFrom, piecesFrom, weave, respaced]
  | cons g gs ih =>
    rw [gapsFrom, piecesFrom, respaced]
    split
    · simp [weave, ih]
    · exact ih _ _

theorem length_respaced_le (pending : List Char) (gs : List Segment) :
    (respaced pending gs).length ≤ (pending ++ gs.flatMap Segment.whole).length := by
  induction gs generalizing pending with
  | nil => simpa [respaced] using length_normalise_le pending
  | cons g gs ih =>
    rw [respaced]
    split
    · have := length_normalise_le pending
      have := ih g.skipped
      simp only [List.length_append, List.flatMap_cons, Segment.whole] at this ⊢
      omega
    · simpa using ih (pending ++ g.whole)

/-- Only gaps change. -/
theorem upToGap_respaced {pending : List Char} {gs : List Segment}
    (hp : ∀ c ∈ pending, Text.isWhiteSpace c) (hfits : ∀ g ∈ gs, g.Fits)
    (hsound : ∀ g ∈ gs, g.reading.fault = none) :
    UpToGap (pending ++ gs.flatMap Segment.whole) (respaced pending gs) := by
  have gap : ∀ {pending : List Char} (cs ds : List Char),
      (∀ c ∈ pending, Text.isWhiteSpace c) → pending ≠ [] →
      UpToGap (pending ++ cs) (normalise pending ++ ds) := by
    intro pending cs ds hp hne
    obtain ⟨a, pending, rfl⟩ := List.exists_cons_of_ne_nil hne
    obtain ⟨b, printed, hb, hab⟩ := normalise_cons a pending
    rw [hb]
    exact .gap (hp a List.mem_cons_self) hab
  induction gs generalizing pending with
  | nil =>
    by_cases hne : pending = []
    · subst hne
      exact .nil
    · simpa [respaced] using gap [] [] hp hne
  | cons g gs ih =>
    rw [List.forall_mem_cons] at hfits hsound
    rw [respaced, List.flatMap_cons]
    split
    · by_cases hne : pending = []
      · subst hne
        have := (ih hfits.1.skips hfits.2 hsound.2).append g.chars
        simpa [Segment.whole, normalise] using this
      · exact gap _ _ hp hne
    · next hk =>
      obtain ⟨c, hc, hwhite | hfault⟩ := hfits.1.dropped (Bool.not_eq_true _ ▸ hk)
      · rw [← List.append_assoc]
        refine ih (List.forall_mem_append.mpr ⟨hp, ?_⟩) hfits.2 hsound.2
        simpa [hc] using hwhite
      · rw [hsound.1] at hfault
        cases hfault

section Html

variable {options : LexerOptions} {cs : List Char}

theorem readHtml_token (options : LexerOptions) (c : Char) (cs : List Char) :
    (readHtml options c cs).piece.isKept = true ∧ (readHtml options c cs).fault = none := by
  unfold readHtml
  split <;> exact ⟨rfl, rfl⟩

/-- Outside of code no gap is dropped but the one after a closing tag. -/
theorem respaced_html (pending : List Char) :
    respaced pending (segments options false cs) =
      normalise pending ++ respaced [] (segments options false cs) := by
  cases cs with
  | nil => rw [segments]; simp [respaced, normalise]
  | cons c cs =>
    have hk : (readAt options false c cs).piece.isKept = true := (readHtml_token options c cs).1
    rw [segments, respaced, respaced, if_pos hk, if_pos hk]
    simp [normalise]

theorem head?_respaced_html (options : LexerOptions) (cs : List Char) :
    (respaced [] (segments options false cs)).head? = cs.head? := by
  cases cs with
  | nil => rw [segments]; rfl
  | cons c cs =>
    have hk : (readAt options false c cs).piece.isKept = true := (readHtml_token options c cs).1
    rw [segments, respaced, if_pos hk]
    rfl

/-- A carriage return outside of code is followed by what followed it. -/
theorem respaced_html_return (options : LexerOptions) (cs : List Char) : ∃ tail,
    respaced [] (segments options false ('\r' :: cs)) = '\r' :: tail ∧ tail.head? = cs.head? := by
  have hreading : readAt options false '\r' cs =
      .sound (.token .inlineHtml) (htmlLength options cs) := by
    have hnone : openTagAt? options ('\r' :: cs) = none := by
      simp [openTagAt?, startsWithIgnoringCase]
    show readHtml options '\r' cs = _
    rw [readHtml, hnone]
  rw [segments, hreading]
  refine ⟨_, rfl, ?_⟩
  show (cs.take (htmlLength options cs) ++
    respaced [] (segments options false (cs.drop (htmlLength options cs)))).head? = cs.head?
  by_cases hne : cs.take (htmlLength options cs) = []
  · rw [hne, List.nil_append, head?_respaced_html]
    obtain hzero | rfl := List.take_eq_nil_iff.mp hne
    · rw [hzero, List.drop_zero]
    · rfl
  · rw [head?_append_of hne, ← head?_append_of hne (cs.drop (htmlLength options cs)),
      List.take_append_drop]

/-- After a closing tag the printed line end vanishes again, and nothing else does. -/
theorem skippedAfter_respaced (rest : List Char) :
    skippedAfter .closeTag (respaced (rest.take (skippedAfter .closeTag rest))
      (segments options false (rest.drop (skippedAfter .closeTag rest)))) =
      (normalise (rest.take (skippedAfter .closeTag rest))).length := by
  rw [respaced_html]
  by_cases hreturn : "\r\n".toList.isPrefixOf rest = true
  · obtain ⟨tail, rfl⟩ := List.isPrefixOf_iff_prefix.mp hreturn
    rfl
  by_cases hfeed : rest.head? = some '\n'
  · obtain ⟨tail, rfl⟩ := List.head?_eq_some_iff.mp hfeed
    rfl
  have hzero : skippedAfter .closeTag rest = 0 := by
    simp only [skippedAfter, if_neg hreturn, if_neg hfeed]
  have hreturn' :
      ¬ "\r\n".toList.isPrefixOf (respaced [] (segments options false rest)) = true := by
    intro hp
    obtain ⟨tail, htail⟩ := List.isPrefixOf_iff_prefix.mp hp
    change '\r' :: '\n' :: tail = _ at htail
    have hhead : rest.head? = some '\r' := by
      rw [← head?_respaced_html options, ← htail]
      rfl
    obtain ⟨cs, rfl⟩ := List.head?_eq_some_iff.mp hhead
    obtain ⟨tail', hrespaced, hnext⟩ := respaced_html_return options cs
    rw [← htail] at hrespaced
    cases hrespaced
    obtain ⟨after, rfl⟩ := List.head?_eq_some_iff.mp hnext.symm
    exact hreturn rfl
  rw [hzero, List.take_zero, List.drop_zero]
  show skippedAfter .closeTag (respaced [] (segments options false rest)) = 0
  simp only [skippedAfter, if_neg hreturn', head?_respaced_html, if_neg hfeed]

end Html

end Lexer

end PhpSyntax
