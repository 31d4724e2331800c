import PhpSyntax.Proofs.Lexer.Errors
import PhpSyntax.Proofs.Lexer.Offsets
import PhpSyntax.Token.Layout

/-!
The characters between two tokens. On one line columns count characters, so the spacing of two
tokens is the number of characters between them. In front of a token without comments these are
dropped characters: white space, and what is reported.
-/

namespace PhpSyntax

namespace Token

theorem onSameLine_pair {a b : Token} :
    onSameLine? [a, b] = some true ↔ a.start.line = b.start.line := by
  simp [onSameLine?, eq_comm]

namespace StandsAt

variable {cs : List Char} {a b : Token} {o o' : Nat}

theorem stop_eq (h : a.StandsAt cs o) : a.stop = Lexer.positionIn cs (o + a.length) :=
  (h.positionIn_eq (List.append_nil _).symm).symm

/-- Tokens in order of their positions stand in order of their offsets. -/
theorem le_of_stop_le (ha : a.StandsAt cs o) (hb : b.StandsAt cs o') (h : a.stop ≤ b.start) :
    o + a.length ≤ o' := by
  by_contra hlt
  have hback := Lexer.positionIn_lt hb.mark_le (Nat.lt_of_not_le hlt) ha.stop_le
  rw [← hb.start, ← ha.stop_eq] at hback
  exact not_le_of_gt hback h

/-- No line ends between the starts of tokens on one line, so that their columns tell how many
characters lie between. -/
theorem spacing_eq (ha : a.StandsAt cs o) (hb : b.StandsAt cs o') (hle : o + a.length ≤ o')
    (hline : a.start.line = b.start.line) : a.spacing b = (o' - (o + a.length) : Nat) := by
  obtain ⟨n, rfl⟩ := Nat.exists_eq_add_of_le hle
  have hstart : b.start = a.start.advance (cs.extract o (o + (a.length + n))) := by
    rw [hb.start, ha.start, Nat.add_assoc, Lexer.positionIn_add ha.mark_le]
  have hcount := Position.advance_line a.start (cs.extract o (o + (a.length + n)))
  rw [← hstart, ← hline] at hcount
  have hfeed : '\n' ∉ cs.extract o (o + (a.length + n)) := List.count_eq_zero.mp (by omega)
  have hcolumn := Position.advance_column a.start _ hfeed
  have hlength : (cs.extract o (o + (a.length + n))).length = a.length + n := by
    have hle : o + (a.length + n) ≤ cs.length := by
      rw [← Nat.add_assoc]
      exact Nat.le_trans (Nat.le_add_right _ _) hb.stop_le
    rw [Lexer.length_extract hle, Nat.add_sub_cancel_left]
  rw [← hstart, hlength] at hcolumn
  rw [spacing]
  omega

end StandsAt

end Token

namespace Lexer

variable {pos : Position} {gs : List Segment} {t : Token} {after : List Token}

/-- In front of a token without comments everything is dropped. -/
theorem dropped_of_assemble (h : (assemble pos [] gs).tokens = t :: after) (htrivia : t.trivia = []) :
    ∃ dropped back rest, gs = dropped ++ back ∧
      (∀ g ∈ dropped, g.reading.piece.isKept = false) ∧
      t.start = pos.advance (dropped.flatMap Segment.whole) ∧
      back.flatMap Segment.whole = t.text.toList ++ rest := by
  induction gs generalizing pos with
  | nil =>
    obtain ⟨rfl, -⟩ := List.cons.inj h
    exact ⟨[], [], [], rfl, List.forall_mem_nil _, rfl, rfl⟩
  | cons g gs ih =>
    rw [assemble] at h
    cases hp : g.reading.piece with
    | blank | stray =>
      rw [hp] at h
      obtain ⟨dropped, back, rest, rfl, hdropped, hstart, hback⟩ := ih h
      refine ⟨g :: dropped, back, rest, rfl, List.forall_mem_cons.mpr ⟨?_, hdropped⟩, ?_, hback⟩
      · rw [hp]
        rfl
      · rw [hstart, List.flatMap_cons, Position.advance_append]
    | comment =>
      obtain ⟨u, us, htokens, hne⟩ := assemble_trivia (pos.advance g.whole)
        (List.append_ne_nil_of_right_ne_nil [] (List.cons_ne_nil _ [])) gs
      rw [hp] at h
      obtain ⟨rfl, -⟩ := List.cons.inj (htokens.symm.trans h)
      exact absurd htrivia hne
    | token kind =>
      rw [hp] at h
      obtain ⟨rfl, -⟩ := List.cons.inj h
      refine ⟨[], g :: gs, g.skipped ++ gs.flatMap Segment.whole, rfl, List.forall_mem_nil _, rfl,
        ?_⟩
      rw [List.flatMap_cons, Segment.whole, String.toList_ofList, List.append_assoc]

theorem spansFrom_dropped {dropped : List Segment}
    (h : ∀ g ∈ dropped, g.reading.piece.isKept = false) (o : Nat) (back : List Segment) :
    spansFrom o (dropped ++ back) =
      spansFrom (o + (dropped.flatMap Segment.whole).length) back := by
  induction dropped generalizing o with
  | nil => rfl
  | cons g dropped ih =>
    rw [List.forall_mem_cons] at h
    rw [List.cons_append, spansFrom, if_neg (by simp [h.1]), ih h.2, List.flatMap_cons,
      List.length_append, Nat.add_assoc]

def Lexed.Drops (cs : List Char) (lexed : Lexed) (i : Nat) : Prop :=
  ∀ c, cs[i]? = some c →
    Text.isWhiteSpace c ∨ ⟨.unexpectedCharacter c, positionIn cs i⟩ ∈ lexed.errors

section Source

variable {options : LexerOptions} {source : String} {before between : List Token} {a b : Token}
  {o o' : Nat}

/-- What stands between a piece and the next one that is kept is dropped. -/
theorem segments_drop {front dropped back : List Segment} {g : Segment}
    (hgs : sourceSegments options source = front ++ g :: (dropped ++ back))
    (hg : g.reading.piece.isKept = true) (hdropped : ∀ g ∈ dropped, g.reading.piece.isKept = false)
    {i : Nat} (hi : markLength source.toList + (front.flatMap Segment.whole).length +
      g.chars.length ≤ i)
    (hlt : i < markLength source.toList +
      (front.flatMap Segment.whole ++ g.whole ++ dropped.flatMap Segment.whole).length) :
    (tokenizeWith options source).Drops source.toList i := by
  intro c hc
  have hfits : ∀ h ∈ sourceSegments options source, h.Fits := segments_fits options false _
  rw [hgs] at hfits
  have hwhole : front.flatMap Segment.whole ++ (g :: (dropped ++ back)).flatMap Segment.whole =
      source.toList.drop (markLength source.toList) := by
    rw [← List.flatMap_append, ← hgs]
    exact segments_whole ..
  rw [tokenizeWith_eq, assemble_errors, hgs, errorsFrom_append, Position.advance_start]
  generalize source.toList = cs at *
  generalize front.flatMap Segment.whole = read at *
  let mark := cs.take (markLength cs)
  have hmark : mark.length = markLength cs := List.length_take_of_le (markLength_le cs)
  have hlength : (mark ++ read).length = markLength cs + read.length := by
    rw [List.length_append, hmark]
  have hcs : (mark ++ read) ++ (g :: (dropped ++ back)).flatMap Segment.whole = cs := by
    rw [List.append_assoc, hwhole, List.take_append_drop]
  have hout : ∀ p ∈ spansFrom (mark ++ read).length (g :: (dropped ++ back)),
      i < p.1 ∨ p.2 ≤ i := by
    rw [hlength, spansFrom, if_pos hg, spansFrom_dropped hdropped]
    refine List.forall_mem_cons.mpr ⟨.inr hi, fun p hp => .inl ?_⟩
    have hbound := (spansFrom_bounds _ _ p hp).1
    rw [List.length_append, List.length_append] at hlt
    omega
  have hb : markLength cs ≤ (mark ++ read).length := by omega
  have hgap := spansFrom_gaps hb (fun h hh => hfits h (List.mem_append_right _ hh)) hcs (by omega)
    hc hout
  refine hgap.imp id fun hcount => ?_
  rw [List.drop_left' hmark] at hcount
  exact List.mem_append_right _ (List.count_pos_iff.mp (hcount ▸ Nat.one_pos))

/-- Between neighbours everything is dropped, unless a comment stands there. -/
theorem tokenizeWith_drops (h : (tokenizeWith options source).tokens = before ++ a :: b :: after)
    (htrivia : b.trivia = []) (ha : a.StandsAt source.toList o) (hb : b.StandsAt source.toList o')
    {i : Nat} (hi : o + a.length ≤ i) (hlt : i < o') :
    (tokenizeWith options source).Drops source.toList i := by
  rw [tokenizeWith_eq] at h
  have hwhole : source.toList.drop (markLength source.toList) =
      (sourceSegments options source).flatMap Segment.whole := (segments_whole ..).symm
  obtain ⟨front, back, hgs, hstart, hback⟩ := assemble_split h
  rw [Position.advance_start] at hstart
  rw [hgs, List.flatMap_append] at hwhole
  obtain ⟨rfl, -, htext⟩ | ⟨g, later, rfl, hpiece, htext, hafter⟩ := hback
  · -- the end of the file is the last token
    have hhere : source.toList.drop (markLength source.toList) =
        front.flatMap Segment.whole ++ (a.text.toList ++ []) := by
      rw [hwhole, htext]
      rfl
    have hend := ha.unique (.of_append hhere hstart)
    have hlength := congrArg List.length hwhole
    have hstop := hb.stop_le
    rw [List.flatMap_nil, List.append_nil, List.length_drop] at hlength
    omega
  · obtain ⟨dropped, back, rest, rfl, hdropped, hnext, hback⟩ := dropped_of_assemble hafter htrivia
    have htext : a.text.toList = g.chars := by rw [htext, String.toList_ofList]
    have hwhole : source.toList.drop (markLength source.toList) =
        front.flatMap Segment.whole ++ g.whole ++ dropped.flatMap Segment.whole ++
          (b.text.toList ++ rest) := by
      rw [hwhole, List.flatMap_cons, List.flatMap_append, hback]
      simp only [List.append_assoc]
    have hnext : b.start = .after
        (front.flatMap Segment.whole ++ g.whole ++ dropped.flatMap Segment.whole) := by
      rw [hnext, hstart, Position.after_append, Position.after_append]
    have ho' := hb.unique (.of_append hwhole hnext)
    rw [Segment.whole, ← htext] at hwhole
    simp only [List.append_assoc] at hwhole
    have ho := ha.unique (.of_append hwhole hstart)
    refine segments_drop hgs (by rw [hpiece]; rfl) hdropped ?_ (ho' ▸ hlt)
    rwa [← ho, ← htext]

structure Spaced (cs : List Char) (a b : Token) (stop start : Nat) : Prop where
  stop_le : stop ≤ start
  spacing_eq : a.spacing b = (cs.extract stop start).length
  nonneg : 0 ≤ a.spacing b
  adjacent : a.spacing b = 0 ↔ stop = start

/-- The spacing of two tokens on a line is the number of characters between them. -/
theorem tokenizeWith_spaces
    (h : (tokenizeWith options source).tokens = before ++ a :: (between ++ b :: after))
    (hline : Token.onSameLine? [a, b] = some true) :
    ∃ o o', a.StandsAt source.toList o ∧ b.StandsAt source.toList o' ∧
      Spaced source.toList a b (o + a.length) o' ∧
      (between = [] → b.trivia = [] → ∀ i, o + a.length ≤ i → i < o' →
        (tokenizeWith options source).Drops source.toList i) := by
  have hmem : a ∈ (tokenizeWith options source).tokens ∧
      b ∈ (tokenizeWith options source).tokens := by simp [h]
  obtain ⟨o, ha⟩ := tokenizeWith_standsAt hmem.1
  obtain ⟨o', hb⟩ := tokenizeWith_standsAt hmem.2
  have hordered := tokenizeWith_ordered options source
  rw [h, List.pairwise_append, List.pairwise_cons] at hordered
  have hle : o + a.length ≤ o' := ha.le_of_stop_le hb (hordered.2.1.1 b (by simp))
  have hspacing := ha.spacing_eq hb hle (Token.onSameLine_pair.mp hline)
  have hlength := length_extract (i := o + a.length)
    (Nat.le_trans (Nat.le_add_right o' _) hb.stop_le)
  refine ⟨o, o', ha, hb, ⟨hle, by rw [hspacing, hlength], by omega, by omega⟩, ?_⟩
  rintro rfl htrivia i hi hlt
  exact tokenizeWith_drops h htrivia ha hb hi hlt

end Source

/-- A string over two lines stands in front, and the characters between are a tab, one that starts
no token, and white space outside of ASCII. -/
theorem tokenize_spaces_stray :
    let source := "\ufeff<?php f('a\nb')\t\x01\u00a0;"
    ∃ before a b after, (tokenize source).tokens = before ++ a :: ([] ++ b :: after) ∧
      Token.onSameLine? [a, b] = some true ∧ a.spacing b = 3 ∧
      ∃ o o', a.StandsAt source.toList o ∧ b.StandsAt source.toList o' ∧
        Spaced source.toList a b (o + a.length) o' ∧
        (([] : List Token) = [] → b.trivia = [] → ∀ i, o + a.length ≤ i → i < o' →
          (tokenize source).Drops source.toList i) := by
  intro source
  have h : (tokenize source).tokens =
      [⟨.openTag, "<?php", ⟨1, 0⟩, []⟩, ⟨.identifier, "f", ⟨1, 6⟩, []⟩,
        ⟨.punctuator, "(", ⟨1, 7⟩, []⟩, ⟨.singleQuotedString, "'a\nb'", ⟨1, 8⟩, []⟩] ++
      ⟨.punctuator, ")", ⟨2, 2⟩, []⟩ :: ([] ++ ⟨.punctuator, ";", ⟨2, 6⟩, []⟩ ::
        [⟨.eof, "", ⟨2, 7⟩, []⟩]) := by decide +kernel
  exact ⟨_, _, _, _, h, rfl, rfl, tokenizeWith_spaces h rfl⟩

end Lexer

end PhpSyntax
