import PhpSyntax.Proofs.Lexer.Endings
import PhpSyntax.Proofs.Lexer.Tokens

/-!
The errors of a source. They stand in order, and only the last one can tell that the end of a text
is missing: that text is then the last piece and takes the rest of the source.
-/

namespace PhpSyntax

def Comment.Closed (c : Comment) : Prop :=
  Lexer.Piece.comment.Closed c.text.toList

structure Token.Closed (t : Token) : Prop where
  text : (Lexer.Piece.token t.kind).Closed t.text.toList
  trivia : ∀ c ∈ t.trivia, c.Closed

namespace Lexer

/-- The last piece of `lexed`, which takes the rest of `cs`, starts where `e` says and is of the
kind that `e` is about. -/
def Lexed.RunsOut (cs : List Char) (lexed : Lexed) (e : LexError) : Prop :=
  ∃ front text, cs = front ++ text ∧ e.position = .after front ∧
    match e.fault with
    | .unterminatedString => ∃ init kind trivia quote body,
        lexed.tokens = init ++ [⟨kind, String.ofList text, e.position, trivia⟩,
          ⟨.eof, "", .after cs, []⟩] ∧
        kind.quote? = some quote ∧ text = quote :: body
    | .unterminatedHeredoc _ => ∃ init kind trivia,
        lexed.tokens = init ++ [⟨kind, String.ofList text, e.position, trivia⟩,
          ⟨.eof, "", .after cs, []⟩] ∧
        (kind = .heredoc ∨ kind = .nowdoc)
    | .unterminatedComment => ∃ init trivia,
        lexed.tokens = init ++
          [⟨.eof, "", .after cs, trivia ++ [⟨String.ofList text, e.position⟩]⟩] ∧
        "/*".toList <+: text
    | .unexpectedCharacter _ => False

structure Lexed.Reports (cs : List Char) (lexed : Lexed) : Prop where
  ordered : lexed.errors.Pairwise fun e e' => e.position < e'.position
  /-- Only one text can miss its end, and it is the last one. -/
  last : ∀ e ∈ lexed.errors, e.fault.isUnterminated = true →
    ∃ init, lexed.errors = init ++ [e] ∧ ∀ e' ∈ init, e'.fault.isUnterminated = false
  runsOut : ∀ e ∈ lexed.errors, e.fault.isUnterminated = true → lexed.RunsOut cs e
  closed : (∀ e ∈ lexed.errors, e.fault.isUnterminated = false) → ∀ t ∈ lexed.tokens, t.Closed

/-- A segment in front of `back`: nothing follows a text whose end is missing. -/
structure Segment.EndsBefore (back : List Segment) (g : Segment) : Prop where
  hasFault : ∀ fault, g.reading.fault = some fault → g.reading.piece.HasFault g.chars fault
  runsOut : ∀ fault, g.reading.fault = some fault → fault.isUnterminated = true →
    g.skipped = [] ∧ back = []
  closed : (∀ fault, g.reading.fault = some fault → fault.isUnterminated = false) →
    g.reading.piece.Closed g.chars

theorem readAt_ends (options : LexerOptions) (inside : Bool) (c : Char) (cs : List Char) :
    (readAt options inside c cs).Ends c cs :=
  .ite (fun _ => readCode_ends c cs) fun _ => readHtml_ends options c cs

def EndsInOrder (gs : List Segment) : Prop :=
  ∀ front g back, gs = front ++ g :: back → g.EndsBefore back

theorem segments_ends (options : LexerOptions) (inside : Bool) (source : List Char) :
    EndsInOrder (segments options inside source) := by
  intro front g back h
  induction inside, source using segments.induct options generalizing front with
  | case1 inside => simp [segments] at h
  | case2 inside c cs reading rest n ih =>
    rw [segments] at h
    obtain ⟨-, hlast⟩ | ⟨front, -, htail⟩ := List.append_eq_cons_iff.mp h.symm
    · obtain ⟨rfl, rfl⟩ := List.cons.inj hlast
      have hends := readAt_ends options inside c cs
      refine ⟨hends.hasFault, fun fault hfault hu => ?_, hends.closed⟩
      have hrest : cs.drop (readAt options inside c cs).more = [] :=
        List.drop_of_length_le (Nat.le_of_eq (hends.runsOut fault hfault hu).symm)
      simp only [hrest, List.take_nil, List.drop_nil, segments, and_self]
    · exact ih front htail

theorem errorsFrom_append (pos : Position) (front back : List Segment) :
    errorsFrom pos (front ++ back) =
      errorsFrom pos front ++ errorsFrom (pos.advance (front.flatMap Segment.whole)) back := by
  induction front generalizing pos with
  | nil => rfl
  | cons g front ih =>
    rw [List.cons_append, errorsFrom, errorsFrom, ih, List.flatMap_cons, Position.advance_append,
      List.append_assoc]

/-- Each error is about a segment and stands where it starts. -/
theorem mem_errorsFrom {pos : Position} {gs : List Segment} {e : LexError} :
    e ∈ errorsFrom pos gs ↔ ∃ front g back, gs = front ++ g :: back ∧
      g.reading.fault = some e.fault ∧ e.position = pos.advance (front.flatMap Segment.whole) := by
  constructor
  · induction gs generalizing pos with
    | nil => nofun
    | cons g gs ih =>
      rw [errorsFrom, List.mem_append]
      rintro (he | he)
      · obtain ⟨fault, hfault, rfl⟩ := List.mem_map.mp he
        exact ⟨[], g, gs, rfl, Option.mem_toList.mp hfault, rfl⟩
      · obtain ⟨front, g', back, rfl, hfault, hpos⟩ := ih he
        refine ⟨g :: front, g', back, rfl, hfault, ?_⟩
        rw [hpos, List.flatMap_cons, Position.advance_append]
  · rintro ⟨front, g, back, rfl, hfault, hpos⟩
    rw [errorsFrom_append, errorsFrom, Segment.faults, hfault, ← hpos]
    simp

/-- Segments that start at the same position are one segment. -/
theorem eq_of_position {pos : Position} {front back front' back' : List Segment} {g g' : Segment}
    (hfits : ∀ h ∈ front ++ g :: back, h.Fits) (hgs : front ++ g :: back = front' ++ g' :: back')
    (hpos : pos.advance (front.flatMap Segment.whole) =
      pos.advance (front'.flatMap Segment.whole)) : g = g' := by
  -- more segments in front would move the position on
  have hnil : ∀ {front extra : List Segment}, (∀ h ∈ extra, h.Fits) →
      pos.advance ((front ++ extra).flatMap Segment.whole) =
        pos.advance (front.flatMap Segment.whole) → extra = [] := by
    intro front extra hextra hsame
    cases extra with
    | nil => rfl
    | cons h extra =>
      rw [List.flatMap_append, Position.advance_append] at hsame
      refine absurd hsame (Position.advance_ne _ ?_)
      simp [(hextra h List.mem_cons_self).whole_ne_nil]
  obtain ⟨extra, rfl, htail⟩ | ⟨extra, rfl, htail⟩ := List.append_eq_append_iff.mp hgs
  · have hextra : ∀ h ∈ extra, h.Fits := fun h hh =>
      hfits h (by rw [htail]; exact List.mem_append_right _ (List.mem_append_left _ hh))
    obtain rfl := hnil hextra hpos.symm
    exact (List.cons.inj htail).1
  · have hextra : ∀ h ∈ extra, h.Fits := fun h hh =>
      hfits h (List.mem_append_left _ (List.mem_append_right _ hh))
    obtain rfl := hnil hextra hpos
    exact (List.cons.inj htail).1.symm

theorem errorsFrom_ordered (pos : Position) {gs : List Segment} (hfits : ∀ g ∈ gs, g.Fits) :
    (errorsFrom pos gs).Pairwise fun e e' => e.position < e'.position := by
  induction gs generalizing pos with
  | nil => exact .nil
  | cons g gs ih =>
    rw [List.forall_mem_cons] at hfits
    rw [errorsFrom]
    refine List.pairwise_append.mpr ⟨?_, ih _ hfits.2, fun e he e' he' => ?_⟩
    · rw [Segment.faults]
      cases g.reading.fault <;> simp
    · obtain ⟨fault, -, rfl⟩ := List.mem_map.mp he
      obtain ⟨cs, hcs⟩ := errorsFrom_position he'
      rw [hcs, ← Position.advance_append]
      exact pos.lt_advance (by simp [hfits.1.whole_ne_nil])

namespace EndsInOrder

variable {pos : Position} {gs : List Segment} {e : LexError} (h : EndsInOrder gs)
include h

/-- What misses its end is the last segment. -/
theorem exists_last (he : e ∈ errorsFrom pos gs) (hu : e.fault.isUnterminated = true) :
    ∃ front g, gs = front ++ [g] ∧ g.EndsBefore [] ∧ g.reading.fault = some e.fault ∧
      e.position = pos.advance (front.flatMap Segment.whole) := by
  obtain ⟨front, g, back, hgs, hfault, hpos⟩ := mem_errorsFrom.mp he
  have hg := h front g back hgs
  obtain rfl := (hg.runsOut _ hfault hu).2
  exact ⟨front, g, hgs, hg, hfault, hpos⟩

theorem errors_last (he : e ∈ errorsFrom pos gs) (hu : e.fault.isUnterminated = true) :
    ∃ init, errorsFrom pos gs = init ++ [e] ∧ ∀ e' ∈ init, e'.fault.isUnterminated = false := by
  obtain ⟨front, g, rfl, -, hfault, hpos⟩ := h.exists_last he hu
  refine ⟨errorsFrom pos front, ?_, fun e' he' => ?_⟩
  · rw [errorsFrom_append, errorsFrom, Segment.faults, hfault, ← hpos]
    rfl
  · -- another text without an end would be followed by `g`
    obtain ⟨front', g', back', rfl, hfault', -⟩ := mem_errorsFrom.mp he'
    rw [Bool.eq_false_iff]
    intro hu'
    have hnil := ((h _ g' _ (List.append_assoc ..)).runsOut _ hfault' hu').2
    exact absurd hnil (by simp)

theorem closed (hsound : ∀ e ∈ errorsFrom pos gs, e.fault.isUnterminated = false) :
    ∀ g ∈ gs, g.reading.piece.Closed g.chars := by
  intro g hg
  obtain ⟨front, back, rfl⟩ := List.append_of_mem hg
  exact (h front g back rfl).closed fun fault hfault =>
    hsound ⟨fault, _⟩ (mem_errorsFrom.mpr ⟨front, g, back, rfl, hfault, rfl⟩)

end EndsInOrder

/-- The tokens of the last segments are the last tokens. -/
theorem assemble_append (pos : Position) (trivia : List Comment) (front back : List Segment) :
    ∃ init waiting, (assemble pos trivia (front ++ back)).tokens = init ++
      (assemble (pos.advance (front.flatMap Segment.whole)) waiting back).tokens := by
  induction front generalizing pos trivia with
  | nil => exact ⟨[], trivia, rfl⟩
  | cons g front ih =>
    rw [List.cons_append, assemble, List.flatMap_cons, Position.advance_append]
    cases g.reading.piece with
    | blank => exact ih _ _
    | stray => exact ih _ _
    | comment => exact ih _ _
    | token kind =>
      obtain ⟨init, waiting, h⟩ := ih (pos.advance g.whole) []
      exact ⟨_ :: init, waiting, congrArg _ h⟩

theorem assemble_closed (pos : Position) {trivia : List Comment} {gs : List Segment}
    (htrivia : ∀ c ∈ trivia, c.Closed) (hgs : ∀ g ∈ gs, g.reading.piece.Closed g.chars) :
    ∀ t ∈ (assemble pos trivia gs).tokens, t.Closed := by
  induction gs generalizing pos trivia with
  | nil =>
    intro t ht
    obtain rfl := List.mem_singleton.mp ht
    exact ⟨by rintro quote ⟨⟩, htrivia⟩
  | cons g gs ih =>
    rw [List.forall_mem_cons] at hgs
    have hchars : (String.ofList g.chars).toList = g.chars := String.toList_ofList
    rw [assemble]
    cases hp : g.reading.piece with
    | blank => exact ih _ htrivia hgs.2
    | stray => exact ih _ htrivia hgs.2
    | comment =>
      refine ih _ (List.forall_mem_append.mpr ⟨htrivia, ?_⟩) hgs.2
      rw [List.forall_mem_singleton, Comment.Closed, hchars, ← hp]
      exact hgs.1
    | token kind =>
      refine List.forall_mem_cons.mpr ⟨⟨?_, htrivia⟩, ih _ (List.forall_mem_nil _) hgs.2⟩
      rw [hchars, ← hp]
      exact hgs.1

/-- What the last segment becomes if its end is missing. -/
theorem assemble_runsOut {front : List Segment} {g : Segment} (hg : g.EndsBefore [])
    {e : LexError} (hfault : g.reading.fault = some e.fault)
    (hu : e.fault.isUnterminated = true)
    (hpos : e.position = .after (front.flatMap Segment.whole)) :
    (assemble .start [] (front ++ [g])).RunsOut ((front ++ [g]).flatMap Segment.whole) e := by
  obtain ⟨init, waiting, htokens⟩ := assemble_append .start [] front [g]
  have hwhole : g.whole = g.chars := by
    rw [Segment.whole, (hg.runsOut _ hfault hu).1, List.append_nil]
  have hcs : (front ++ [g]).flatMap Segment.whole = front.flatMap Segment.whole ++ g.chars := by
    simp [hwhole]
  have hstop : e.position.advance g.whole = .after ((front ++ [g]).flatMap Segment.whole) := by
    rw [hcs, Position.after_append, hpos, hwhole]
  rw [Position.advance_start, ← hpos, assemble, hstop] at htokens
  have hhas := hg.hasFault _ hfault
  refine ⟨_, g.chars, hcs, hpos, ?_⟩
  cases hf : e.fault with
  | unterminatedString =>
    rw [hf] at hhas
    obtain ⟨kind, quote, body, hp, hquote, hchars⟩ := hhas
    rw [hp] at htokens
    exact ⟨init, kind, waiting, quote, body, htokens, hquote, hchars⟩
  | unterminatedHeredoc label =>
    rw [hf] at hhas
    obtain ⟨kind, hp, hkind⟩ : ∃ kind, g.reading.piece = .token kind ∧
        (kind = .heredoc ∨ kind = .nowdoc) :=
      hhas.elim (fun hp => ⟨_, hp, .inl rfl⟩) fun hp => ⟨_, hp, .inr rfl⟩
    rw [hp] at htokens
    exact ⟨init, kind, waiting, htokens, hkind⟩
  | unterminatedComment =>
    rw [hf] at hhas
    rw [hhas.1] at htokens
    exact ⟨init, waiting, htokens, hhas.2⟩
  | unexpectedCharacter c => rw [hf] at hu; cases hu

/-- Errors are reported in order, and only the last one is about a text without an end. -/
theorem tokenizeWith_reports (options : LexerOptions) (source : String) :
    (tokenizeWith options source).Reports (withoutByteOrderMark source.toList) := by
  have hends : EndsInOrder (sourceSegments options source) := segments_ends options false _
  have hfits : ∀ g ∈ sourceSegments options source, g.Fits := segments_fits options false _
  have hwhole : (sourceSegments options source).flatMap Segment.whole =
      withoutByteOrderMark source.toList := by
    rw [withoutByteOrderMark_eq]
    exact segments_whole ..
  rw [tokenizeWith_eq, ← hwhole]
  generalize sourceSegments options source = gs at hends hfits
  refine ⟨?_, ?_, ?_, ?_⟩ <;> rw [assemble_errors]
  · exact errorsFrom_ordered _ hfits
  · exact fun e => hends.errors_last
  · intro e he hu
    obtain ⟨front, g, rfl, hg, hfault, hpos⟩ := hends.exists_last he hu
    rw [Position.advance_start] at hpos
    exact assemble_runsOut hg hfault hu hpos
  · exact fun hsound => assemble_closed _ (List.forall_mem_nil _) (hends.closed hsound)

example : (tokenize "<?php \x01\n/* '*/ \"$a").errors =
    [⟨.unexpectedCharacter '\x01', ⟨1, 6⟩⟩, ⟨.unterminatedString, ⟨2, 7⟩⟩] := by decide +kernel

end Lexer

end PhpSyntax
