import PhpSyntax.Proofs.Lexer.Cover

namespace PhpSyntax

/-- A token stands in `cs` where it says, and in quotes if it is a string. -/
structure Token.StandsIn (cs : List Char) (t : Token) : Prop where
  placed : ∃ front rest, cs = front ++ t.text.toList ++ rest ∧ t.start = .after front
  quoted : t.kind = .singleQuotedString ∨ t.kind = .doubleQuotedString →
    ∃ quote body, t.text.toList = quote :: body ++ [quote]

namespace Lexer

theorem errorsFrom_eq_nil {pos : Position} {gs : List Segment} (h : errorsFrom pos gs = []) :
    ∀ g ∈ gs, g.reading.fault = none := by
  induction gs generalizing pos with
  | nil => nofun
  | cons g gs ih =>
    obtain ⟨hg, hgs⟩ := List.append_eq_nil_iff.mp h
    refine List.forall_mem_cons.mpr ⟨?_, ih hgs⟩
    simpa [Segment.faults] using hg

theorem assemble_stands (front : List Char) (trivia : List Comment) {gs : List Segment}
    (hfits : ∀ g ∈ gs, g.Fits) (hsound : ∀ g ∈ gs, g.reading.fault = none) :
    ∀ t ∈ (assemble (.after front) trivia gs).tokens,
      t.StandsIn (front ++ gs.flatMap Segment.whole) := by
  induction gs generalizing front trivia with
  | nil =>
    intro t ht
    obtain rfl := List.mem_singleton.mp ht
    exact ⟨⟨front, [], by simp, rfl⟩, by simp⟩
  | cons g gs ih =>
    rw [List.forall_mem_cons] at hfits hsound
    have hcs : front ++ (g :: gs).flatMap Segment.whole =
        (front ++ g.whole) ++ gs.flatMap Segment.whole := by simp
    have htail : ∀ trivia, ∀ t ∈ (assemble ((Position.after front).advance g.whole) trivia gs).tokens,
        t.StandsIn (front ++ (g :: gs).flatMap Segment.whole) := by
      intro trivia
      rw [hcs, ← Position.after_append]
      exact ih _ trivia hfits.2 hsound.2
    rw [assemble]
    cases hp : g.reading.piece with
    | blank => exact htail _
    | stray => exact htail _
    | comment => exact htail _
    | token kind =>
      refine List.forall_mem_cons.mpr ⟨⟨⟨front, g.skipped ++ gs.flatMap Segment.whole, ?_, rfl⟩, ?_⟩,
        htail _⟩
      · simp [Segment.whole]
      · intro hk
        obtain ⟨c, cs, hc, hr⟩ := hfits.1.reads
        simp only [Reading.Fits, hp] at hr
        obtain ⟨body, hbody⟩ := hr.2 hk hsound.1
        exact ⟨c, body, by simp [hc, hbody]⟩

theorem tokenizeWith_stands {options : LexerOptions} {source : String}
    (h : (tokenizeWith options source).errors = []) :
    ∀ t ∈ (tokenizeWith options source).tokens, t.StandsIn (withoutByteOrderMark source.toList) := by
  rw [tokenizeWith_eq] at h ⊢
  rw [assemble_errors] at h
  have hwhole : (sourceSegments options source).flatMap Segment.whole =
      withoutByteOrderMark source.toList := by
    rw [withoutByteOrderMark_eq]
    exact segments_whole ..
  rw [← hwhole]
  exact assemble_stands [] [] (segments_fits options false _) (errorsFrom_eq_nil h)

theorem assemble_ordered (pos : Position) (trivia : List Comment) (gs : List Segment) :
    (∀ t ∈ (assemble pos trivia gs).tokens, pos ≤ t.start) ∧
      (assemble pos trivia gs).tokens.Pairwise fun t u => t.stop ≤ u.start := by
  induction gs generalizing pos trivia with
  | nil => exact ⟨by simp [assemble], List.pairwise_singleton _ _⟩
  | cons g gs ih =>
    have hpos : pos ≤ pos.advance g.whole := pos.le_advance _
    have htail : ∀ trivia, ∀ t ∈ (assemble (pos.advance g.whole) trivia gs).tokens,
        pos ≤ t.start := fun trivia t ht => le_trans hpos ((ih _ trivia).1 t ht)
    rw [assemble]
    cases g.reading.piece with
    | blank => exact ⟨htail _, (ih _ _).2⟩
    | stray => exact ⟨htail _, (ih _ _).2⟩
    | comment => exact ⟨htail _, (ih _ _).2⟩
    | token kind =>
      refine ⟨List.forall_mem_cons.mpr ⟨le_refl pos, htail _⟩, List.pairwise_cons.mpr ⟨?_, (ih _ _).2⟩⟩
      intro u hu
      -- what vanishes after the token only adds to the distance
      have hstop : pos.advance g.chars ≤ pos.advance g.whole := by
        rw [Segment.whole, Position.advance_append]
        exact Position.le_advance _ _
      rw [Token.stop, String.toList_ofList]
      exact le_trans hstop ((ih _ _).1 u hu)

/-- Each token ends before the next one starts. -/
theorem tokenizeWith_ordered (options : LexerOptions) (source : String) :
    (tokenizeWith options source).tokens.Pairwise fun t u => t.stop ≤ u.start := by
  rw [tokenizeWith_eq]
  exact (assemble_ordered _ _ _).2

end Lexer

end PhpSyntax
