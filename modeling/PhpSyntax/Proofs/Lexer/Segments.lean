import PhpSyntax.Proofs.Lexer.Readings
import PhpSyntax.Proofs.Source.Position

namespace PhpSyntax.Lexer

def readAt (options : LexerOptions) (inside : Bool) (c : Char) (cs : List Char) : Reading :=
  if inside then readCode c cs else readHtml options c cs

namespace Piece

def vanishing (rest : List Char) : Piece → Nat
  | token kind => skippedAfter kind rest
  | _ => 0

def isKept : Piece → Bool
  | blank | stray => false
  | comment | token _ => true

def insideAfter (inside : Bool) : Piece → Bool
  | token kind => Lexer.insideAfter inside kind
  | _ => inside

end Piece

/-- A reading with the characters that it takes and those that vanish after it. -/
structure Segment where
  reading : Reading
  chars : List Char
  skipped : List Char

def segments (options : LexerOptions) (inside : Bool) (source : List Char) : List Segment :=
  match source with
  | [] => []
  | c :: cs =>
    let reading := readAt options inside c cs
    let rest := cs.drop reading.more
    let n := reading.piece.vanishing rest
    ⟨reading, c :: cs.take reading.more, rest.take n⟩ ::
      segments options (reading.piece.insideAfter inside) (rest.drop n)
termination_by source.length
decreasing_by simp +arith

namespace Segment

def whole (g : Segment) : List Char :=
  g.chars ++ g.skipped

def faults (pos : Position) (g : Segment) : List LexError :=
  g.reading.fault.toList.map fun fault => ⟨fault, pos⟩

/-- A segment that stands for a reading of some text, after which only white space vanishes. -/
structure Fits (g : Segment) : Prop where
  reads : ∃ c cs, g.chars = c :: cs.take g.reading.more ∧ g.reading.Fits c cs
  skips : ∀ d ∈ g.skipped, Text.isWhiteSpace d
  skips_after_token : g.skipped ≠ [] → ∃ kind, g.reading.piece = .token kind

namespace Fits

theorem chars_ne_nil {g : Segment} (h : g.Fits) : g.chars ≠ [] := by
  obtain ⟨c, cs, hc, -⟩ := h.reads
  simp [hc]

theorem whole_ne_nil {g : Segment} (h : g.Fits) : g.whole ≠ [] := by
  simp [whole, h.chars_ne_nil]

theorem dropped {g : Segment} (h : g.Fits) (hk : g.reading.piece.isKept = false) :
    ∃ c, g.whole = [c] ∧
      (Text.isWhiteSpace c ∨ g.reading.fault = some (.unexpectedCharacter c)) := by
  obtain ⟨c, cs, hc, hr⟩ := h.reads
  have hs : g.skipped = [] := by
    by_contra hne
    obtain ⟨kind, hkind⟩ := h.skips_after_token hne
    simp [hkind, Piece.isKept] at hk
  refine ⟨c, ?_⟩
  unfold Reading.Fits at hr
  split at hr
  · exact ⟨by simp [whole, hc, hs, hr.1], .inl hr.2.2⟩
  · exact ⟨by simp [whole, hc, hs, hr.1], .inr hr.2⟩
  · simp_all [Piece.isKept]
  · simp_all [Piece.isKept]

end Fits

end Segment

theorem segments_whole (options : LexerOptions) (inside : Bool) (source : List Char) :
    (segments options inside source).flatMap Segment.whole = source := by
  induction inside, source using segments.induct options with
  | case1 inside => rw [segments]; rfl
  | case2 inside c cs reading rest n ih =>
    rw [segments, List.flatMap_cons, ih]
    change (c :: cs.take reading.more ++ rest.take n) ++ rest.drop n = c :: cs
    rw [List.append_assoc, List.take_append_drop, List.cons_append, List.take_append_drop]

theorem readAt_fits (options : LexerOptions) (inside : Bool) (c : Char) (cs : List Char) :
    (readAt options inside c cs).Fits c cs :=
  .ite (fun _ => readCode_fits c cs) (readHtml_fits options c cs)

theorem skippedAfter_whiteSpace (kind : TokenKind) (rest : List Char) :
    ∀ d ∈ rest.take (skippedAfter kind rest), Text.isWhiteSpace d := by
  unfold skippedAfter
  split
  · split
    · rename_i h
      obtain ⟨after, rfl⟩ := List.isPrefixOf_iff_prefix.mp h
      simp [Text.isWhiteSpace, Text.inRanges, Text.whiteSpaceRanges]
    split
    · rename_i h
      obtain ⟨after, rfl⟩ := List.head?_eq_some_iff.mp h
      simp [Text.isWhiteSpace, Text.inRanges, Text.whiteSpaceRanges]
    · simp
  · simp

theorem vanishing_whiteSpace (piece : Piece) (rest : List Char) :
    ∀ d ∈ rest.take (piece.vanishing rest), Text.isWhiteSpace d := by
  cases piece with
  | token kind => exact skippedAfter_whiteSpace kind rest
  | _ => simp [Piece.vanishing]

theorem vanishing_token {piece : Piece} {rest : List Char}
    (h : rest.take (piece.vanishing rest) ≠ []) : ∃ kind, piece = .token kind := by
  cases piece with
  | token kind => exact ⟨kind, rfl⟩
  | _ => simp [Piece.vanishing] at h

theorem segments_fits (options : LexerOptions) (inside : Bool) (source : List Char) :
    ∀ g ∈ segments options inside source, g.Fits := by
  induction inside, source using segments.induct options with
  | case1 inside => rw [segments]; nofun
  | case2 inside c cs reading rest n ih =>
    rw [segments]
    intro g hg
    obtain rfl | hg := List.mem_cons.mp hg
    · exact ⟨⟨c, cs, rfl, readAt_fits options inside c cs⟩, vanishing_whiteSpace _ _,
        vanishing_token⟩
    · exact ih g hg

def assemble (pos : Position) (trivia : List Comment) : List Segment → Lexed
  | [] => ⟨[⟨.eof, "", pos, trivia⟩], []⟩
  | g :: gs =>
    let stop := pos.advance g.whole
    match g.reading.piece with
    | .blank | .stray =>
      let tail := assemble stop trivia gs
      ⟨tail.tokens, g.faults pos ++ tail.errors⟩
    | .comment =>
      let tail := assemble stop (trivia ++ [⟨String.ofList g.chars, pos⟩]) gs
      ⟨tail.tokens, g.faults pos ++ tail.errors⟩
    | .token kind =>
      let tail := assemble stop [] gs
      ⟨⟨kind, String.ofList g.chars, pos, trivia⟩ :: tail.tokens, g.faults pos ++ tail.errors⟩

theorem scan_eq (options : LexerOptions) (inside : Bool) (pos : Position)
    (trivia : List Comment) (source : List Char) :
    scan options inside pos trivia source =
      assemble pos trivia (segments options inside source) := by
  induction inside, source using segments.induct options generalizing pos trivia with
  | case1 inside => rw [scan, segments, assemble]
  | case2 inside c cs reading rest n ih =>
    have hr : (if inside then readCode c cs else readHtml options c cs) = reading := rfl
    rw [scan, segments, assemble, hr]
    change _ = (match reading.piece with | .blank | .stray => _ | .comment => _ | .token _ => _)
    cases hp : reading.piece with
    | token kind =>
      simp only [n, hp, Piece.vanishing, Piece.insideAfter] at ih
      simp only [rest, reading] at ih
      simp [ih, reading, Piece.vanishing, Piece.insideAfter, Position.advance_append,
        Segment.whole, Segment.faults, -List.drop_drop]
    | _ =>
      -- nothing vanishes after the other pieces
      simp only [n, hp, Piece.vanishing, Piece.insideAfter, List.drop_zero] at ih
      simp only [rest, reading] at ih
      simp [ih, reading, Piece.vanishing, Piece.insideAfter, Segment.whole, Segment.faults]

end PhpSyntax.Lexer
