import PhpSyntax.Proofs.Lexer.Segments
import PhpSyntax.Tree.Printer

namespace PhpSyntax.Lexer

def Lexed.pieces (lexed : Lexed) : List (String × Position) :=
  lexed.tokens.flatMap Token.pieces

def markLength (cs : List Char) : Nat :=
  if cs.head? = some '\ufeff' then 1 else 0

/-- The comments and tokens of `lexed` stand at `spans`, which are offsets in `cs`, in order and
with exact texts and positions, and only white space and reported characters stand between. -/
structure Covers (cs : List Char) (lexed : Lexed) (spans : List (Nat × Nat)) : Prop where
  bounds : ∀ p ∈ spans, markLength cs ≤ p.1 ∧ p.1 ≤ p.2 ∧ p.2 ≤ cs.length
  ordered : spans.Pairwise fun p q => p.2 ≤ q.1
  slices : List.Forall₂ (fun piece p => piece.1.toList = cs.extract p.1 p.2 ∧
    piece.2 = Position.after (cs.extract (markLength cs) p.1)) lexed.pieces spans
  ends : ∃ init stop, lexed.tokens = init ++ [stop] ∧ stop.kind = .eof ∧ stop.text = "" ∧
    ∀ t ∈ init, t.kind ≠ .eof ∧ t.text ≠ ""
  last : spans.getLast? = some (cs.length, cs.length)
  gaps : ∀ i c, markLength cs ≤ i → cs[i]? = some c → (∀ p ∈ spans, i < p.1 ∨ p.2 ≤ i) →
    Text.isWhiteSpace c ∨
      lexed.errors.count ⟨.unexpectedCharacter c, .after (cs.extract (markLength cs) i)⟩ = 1

def spansFrom (o : Nat) : List Segment → List (Nat × Nat)
  | [] => [(o, o)]
  | g :: gs =>
    let tail := spansFrom (o + g.whole.length) gs
    if g.reading.piece.isKept then (o, o + g.chars.length) :: tail else tail

def piecesFrom (pos : Position) : List Segment → List (String × Position)
  | [] => [("", pos)]
  | g :: gs =>
    let tail := piecesFrom (pos.advance g.whole) gs
    if g.reading.piece.isKept then (String.ofList g.chars, pos) :: tail else tail

def errorsFrom (pos : Position) : List Segment → List LexError
  | [] => []
  | g :: gs => g.faults pos ++ errorsFrom (pos.advance g.whole) gs

theorem assemble_pieces (pos : Position) (trivia : List Comment) (gs : List Segment) :
    (assemble pos trivia gs).pieces =
      trivia.map (fun c => (c.text, c.start)) ++ piecesFrom pos gs := by
  induction gs generalizing pos trivia with
  | nil => simp [assemble, piecesFrom, Lexed.pieces, Token.pieces]
  | cons g gs ih =>
    unfold Lexed.pieces at ih ⊢
    rw [assemble, piecesFrom]
    cases hp : g.reading.piece with
    | blank => simp [ih, Piece.isKept]
    | stray => simp [ih, Piece.isKept]
    | comment => simp [ih, Piece.isKept]
    | token kind => simp [ih, Piece.isKept, Token.pieces]

theorem assemble_errors (pos : Position) (trivia : List Comment) (gs : List Segment) :
    (assemble pos trivia gs).errors = errorsFrom pos gs := by
  induction gs generalizing pos trivia with
  | nil => rfl
  | cons g gs ih =>
    rw [assemble, errorsFrom]
    cases hp : g.reading.piece <;> simp [ih]

theorem assemble_ends (pos : Position) (trivia : List Comment) {gs : List Segment}
    (hfits : ∀ g ∈ gs, g.Fits) :
    ∃ init stop, (assemble pos trivia gs).tokens = init ++ [stop] ∧ stop.kind = .eof ∧
      stop.text = "" ∧ ∀ t ∈ init, t.kind ≠ .eof ∧ t.text ≠ "" := by
  induction gs generalizing pos trivia with
  | nil => exact ⟨[], _, rfl, rfl, rfl, nofun⟩
  | cons g gs ih =>
    rw [List.forall_mem_cons] at hfits
    rw [assemble]
    cases hp : g.reading.piece with
    | blank => exact ih _ _ hfits.2
    | stray => exact ih _ _ hfits.2
    | comment => exact ih _ _ hfits.2
    | token kind =>
      obtain ⟨init, stop, htokens, hkind, htext, hinit⟩ := ih (pos.advance g.whole) [] hfits.2
      refine ⟨_ :: init, stop, congrArg _ htokens, hkind, htext, ?_⟩
      refine List.forall_mem_cons.mpr ⟨⟨?_, ?_⟩, hinit⟩
      · obtain ⟨c, cs, -, hr⟩ := hfits.1.reads
        simp only [Reading.Fits, hp] at hr
        exact hr.1
      · simpa using hfits.1.chars_ne_nil

/-- Comments that wait stand in front of the next token. -/
theorem assemble_trivia (pos : Position) {trivia : List Comment} (h : trivia ≠ [])
    (gs : List Segment) :
    ∃ t ts, (assemble pos trivia gs).tokens = t :: ts ∧ t.trivia ≠ [] := by
  induction gs generalizing pos trivia with
  | nil => exact ⟨_, _, rfl, h⟩
  | cons g gs ih =>
    rw [assemble]
    cases g.reading.piece with
    | blank | stray => exact ih _ h
    | comment => exact ih _ (by simp)
    | token kind => exact ⟨_, _, rfl, h⟩

theorem spansFrom_bounds (o : Nat) (gs : List Segment) :
    ∀ p ∈ spansFrom o gs, o ≤ p.1 ∧ p.1 ≤ p.2 ∧ p.2 ≤ o + (gs.flatMap Segment.whole).length := by
  induction gs generalizing o with
  | nil => simp [spansFrom]
  | cons g gs ih =>
    have htail : ∀ p ∈ spansFrom (o + g.whole.length) gs,
        o ≤ p.1 ∧ p.1 ≤ p.2 ∧ p.2 ≤ o + ((g :: gs).flatMap Segment.whole).length := by
      intro p hp
      have := ih _ p hp
      simp only [List.flatMap_cons, List.length_append]
      omega
    rw [spansFrom]
    split
    · refine List.forall_mem_cons.mpr ⟨?_, htail⟩
      simp only [List.flatMap_cons, List.length_append, Segment.whole]
      omega
    · exact htail

theorem spansFrom_ordered (o : Nat) (gs : List Segment) :
    (spansFrom o gs).Pairwise fun p q => p.2 ≤ q.1 := by
  induction gs generalizing o with
  | nil => simp [spansFrom]
  | cons g gs ih =>
    rw [spansFrom]
    split
    · refine List.pairwise_cons.mpr ⟨fun p hp => ?_, ih _⟩
      have := spansFrom_bounds _ _ p hp
      simp only [Segment.whole, List.length_append] at this
      omega
    · exact ih _

theorem spansFrom_last (o : Nat) (gs : List Segment) :
    (spansFrom o gs).getLast? = some (o + (gs.flatMap Segment.whole).length,
      o + (gs.flatMap Segment.whole).length) := by
  induction gs generalizing o with
  | nil => rfl
  | cons g gs ih =>
    rw [spansFrom, List.flatMap_cons, List.length_append, ← Nat.add_assoc]
    split
    · simp [List.getLast?_cons, ih]
    · exact ih _

theorem after_drop_append {front : List Char} {b : Nat} (hb : b ≤ front.length) (cs : List Char) :
    Position.after ((front ++ cs).drop b) = (Position.after (front.drop b)).advance cs := by
  rw [List.drop_append_of_le_length hb, Position.after_append]

theorem after_extract_append {front : List Char} {b i : Nat} (hb : b ≤ front.length)
    (hi : front.length ≤ i) (cs : List Char) :
    Position.after ((front ++ cs).extract b i) =
      (Position.after (front.drop b)).advance (cs.take (i - front.length)) := by
  rw [List.extract_eq_take_drop, List.drop_append_of_le_length hb, List.take_append,
    Position.after_append, List.take_of_length_le (by rw [List.length_drop]; omega),
    List.length_drop]
  congr 2
  omega

theorem spansFrom_slices {b : Nat} {front : List Char} (hb : b ≤ front.length)
    (gs : List Segment) {cs : List Char} (hcs : front ++ gs.flatMap Segment.whole = cs) :
    List.Forall₂ (fun piece p => piece.1.toList = cs.extract p.1 p.2 ∧
        piece.2 = Position.after (cs.extract b p.1))
      (piecesFrom (.after (front.drop b)) gs) (spansFrom front.length gs) := by
  induction gs generalizing front with
  | nil =>
    subst cs
    refine .cons ⟨?_, ?_⟩ .nil
    · simp
    · rw [after_extract_append hb (Nat.le_refl _)]
      simp
  | cons g gs ih =>
    have hlen : b ≤ (front ++ g.whole).length := by rw [List.length_append]; omega
    have htail := ih hlen (by rw [List.append_assoc]; exact hcs)
    rw [after_drop_append hb, List.length_append] at htail
    rw [piecesFrom, spansFrom]
    split
    · refine .cons ⟨?_, ?_⟩ htail
      · subst cs
        simp [Segment.whole]
      · subst cs
        rw [after_extract_append hb (Nat.le_refl _)]
        simp
    · exact htail

theorem errorsFrom_position {pos : Position} {gs : List Segment} {e : LexError}
    (he : e ∈ errorsFrom pos gs) : ∃ cs, e.position = pos.advance cs := by
  induction gs generalizing pos with
  | nil => simp [errorsFrom] at he
  | cons g gs ih =>
    rw [errorsFrom, List.mem_append] at he
    obtain he | he := he
    · obtain ⟨fault, -, rfl⟩ := List.mem_map.mp he
      exact ⟨[], rfl⟩
    · obtain ⟨cs, hcs⟩ := ih he
      exact ⟨g.whole ++ cs, by rw [hcs, Position.advance_append]⟩

theorem count_faults_eq_zero {g : Segment} {pos : Position} {e : LexError}
    (h : e.position ≠ pos) : (g.faults pos).count e = 0 := by
  rw [List.count_eq_zero]
  intro he
  obtain ⟨fault, -, rfl⟩ := List.mem_map.mp he
  exact h rfl

/-- A dropped character is reported once, as the positions after it are others. -/
theorem count_dropped {g : Segment} (hg : g.Fits) {c : Char}
    (hfault : g.reading.fault = some (.unexpectedCharacter c)) (pos : Position)
    (gs : List Segment) :
    (errorsFrom pos (g :: gs)).count ⟨.unexpectedCharacter c, pos⟩ = 1 := by
  have htail : (errorsFrom (pos.advance g.whole) gs).count ⟨.unexpectedCharacter c, pos⟩ = 0 := by
    rw [List.count_eq_zero]
    intro he
    obtain ⟨cs, hcs⟩ := errorsFrom_position he
    rw [← Position.advance_append] at hcs
    exact Position.advance_ne pos (by simp [hg.whole_ne_nil]) hcs.symm
  rw [errorsFrom, List.count_append, htail]
  simp [Segment.faults, hfault]

theorem segment_gap {b : Nat} {front : List Char} (hb : b ≤ front.length) {g : Segment}
    (hg : g.Fits) {gs : List Segment} {cs : List Char}
    (hcs : front ++ (g :: gs).flatMap Segment.whole = cs) {i : Nat} (hi : front.length ≤ i)
    (hlt : i < front.length + g.whole.length) {c : Char} (hc : cs[i]? = some c)
    (hout : ∀ p ∈ spansFrom front.length (g :: gs), i < p.1 ∨ p.2 ≤ i) :
    Text.isWhiteSpace c ∨ (errorsFrom (.after (front.drop b)) (g :: gs)).count
      ⟨.unexpectedCharacter c, .after (cs.extract b i)⟩ = 1 := by
  have hget : g.whole[i - front.length]? = some c := by
    rwa [← hcs, List.getElem?_append_right hi, List.flatMap_cons,
      List.getElem?_append_left (by omega)] at hc
  cases hk : g.reading.piece.isKept with
  | true =>
    -- the piece itself is covered, so the character vanishes after it
    have hspan := hout (front.length, front.length + g.chars.length)
      (by rw [spansFrom, if_pos hk]; exact List.mem_cons_self)
    rw [Segment.whole, List.getElem?_append_right (by omega)] at hget
    exact .inl (hg.skips c (List.mem_of_getElem? hget))
  | false =>
    obtain ⟨d, hd, h⟩ := hg.dropped hk
    rw [hd] at hget hlt
    have hi : i = front.length := by simp at hlt; omega
    obtain rfl : d = c := by simpa [hi] using hget
    refine h.imp id fun hfault => ?_
    have hpos : Position.after (cs.extract b i) = .after (front.drop b) := by
      rw [← hcs, after_extract_append hb (Nat.le_of_eq hi.symm), hi]
      simp
    rw [hpos]
    exact count_dropped hg hfault _ gs

theorem spansFrom_gaps {b : Nat} {front : List Char} (hb : b ≤ front.length)
    {gs : List Segment} (hfits : ∀ g ∈ gs, g.Fits) {cs : List Char}
    (hcs : front ++ gs.flatMap Segment.whole = cs) {i : Nat} (hi : front.length ≤ i) {c : Char}
    (hc : cs[i]? = some c) (hout : ∀ p ∈ spansFrom front.length gs, i < p.1 ∨ p.2 ≤ i) :
    Text.isWhiteSpace c ∨ (errorsFrom (.after (front.drop b)) gs).count
      ⟨.unexpectedCharacter c, .after (cs.extract b i)⟩ = 1 := by
  induction gs generalizing front with
  | nil =>
    subst cs
    obtain ⟨hlt, -⟩ := List.getElem?_eq_some_iff.mp hc
    simp at hlt
    omega
  | cons g gs ih =>
    rw [List.forall_mem_cons] at hfits
    by_cases hlt : i < front.length + g.whole.length
    · exact segment_gap hb hfits.1 hcs hi hlt hc hout
    · have hlen : (front ++ g.whole).length = front.length + g.whole.length := List.length_append
      have hb' : b ≤ (front ++ g.whole).length := by omega
      have htail := ih hb' hfits.2 (by rw [List.append_assoc]; exact hcs) (by omega)
        (fun p hp => hout p ?_)
      · refine htail.imp id fun htail => ?_
        rw [after_drop_append hb] at htail
        rw [errorsFrom, List.count_append, htail, count_faults_eq_zero]
        rw [← hcs, after_extract_append hb hi]
        have hne := List.length_pos_iff.mpr hfits.1.whole_ne_nil
        refine Position.advance_ne _ (List.length_pos_iff.mp ?_)
        simp only [List.flatMap_cons, List.length_take, List.length_append]
        omega
      · rw [spansFrom, ← hlen]
        split
        · exact List.mem_cons_of_mem _ hp
        · exact hp

theorem markLength_le (cs : List Char) : markLength cs ≤ cs.length := by
  unfold markLength
  split
  · rename_i hm
    obtain ⟨rest, rfl⟩ := List.head?_eq_some_iff.mp hm
    simp
  · exact Nat.zero_le _

theorem withoutByteOrderMark_eq (cs : List Char) :
    withoutByteOrderMark cs = cs.drop (markLength cs) := by
  unfold withoutByteOrderMark markLength
  split
  · rfl
  · rename_i h
    split
    · rename_i hm
      obtain ⟨rest, rfl⟩ := List.head?_eq_some_iff.mp hm
      exact (h rest rfl).elim
    · rfl

def sourceSegments (options : LexerOptions) (source : String) : List Segment :=
  segments options false (source.toList.drop (markLength source.toList))

theorem tokenizeWith_eq (options : LexerOptions) (source : String) :
    tokenizeWith options source = assemble .start [] (sourceSegments options source) := by
  rw [tokenizeWith, scan_eq, withoutByteOrderMark_eq]
  rfl

/-- The tokens and comments of a source cover it. -/
theorem tokenizeWith_covers (options : LexerOptions) (source : String) :
    ∃ spans, Covers source.toList (tokenizeWith options source) spans := by
  rw [tokenizeWith_eq]
  generalize hcs : source.toList = cs
  let front := cs.take (markLength cs)
  have hfront : front.length = markLength cs := List.length_take_of_le (markLength_le cs)
  let gs := segments options false (cs.drop (markLength cs))
  have hgs : sourceSegments options source = gs := by rw [sourceSegments, hcs]
  have hfits : ∀ g ∈ gs, g.Fits := segments_fits options false _
  have hwhole : gs.flatMap Segment.whole = cs.drop (markLength cs) := segments_whole ..
  have happ : front ++ gs.flatMap Segment.whole = cs := by
    rw [hwhole, List.take_append_drop]
  have hstart : Position.after (front.drop (markLength cs)) = .start := by
    rw [List.drop_of_length_le (Nat.le_of_eq hfront)]
    rfl
  have hlen : markLength cs + (gs.flatMap Segment.whole).length = cs.length := by
    rw [hwhole, List.length_drop]
    have := markLength_le cs
    omega
  rw [hgs]
  refine ⟨spansFrom (markLength cs) gs, ?_, spansFrom_ordered _ _, ?_, assemble_ends _ _ hfits,
    ?_, ?_⟩
  · intro p hp
    have := spansFrom_bounds _ _ p hp
    omega
  · have h := spansFrom_slices (Nat.le_of_eq hfront.symm) gs happ
    rw [hstart, hfront] at h
    rw [assemble_pieces]
    exact h
  · rw [spansFrom_last, hlen]
  · intro i c hi hc hout
    rw [assemble_errors, ← hstart]
    exact spansFrom_gaps (Nat.le_of_eq hfront.symm) hfits happ (by omega) hc (by rwa [hfront])

end PhpSyntax.Lexer
