import PhpSyntax.Proofs.Lexer.Cover

/-!
Where tokens stand in a source. The position of a token belongs to one offset only, so what is told
about positions is told about offsets.
-/

namespace PhpSyntax

namespace Lexer

/-- The position of an offset of a source, in which a byte order mark has no width. -/
def positionIn (cs : List Char) (offset : Nat) : Position :=
  .after (cs.extract (markLength cs) offset)

theorem positionIn_eq {cs front rest : List Char} (h : cs.drop (markLength cs) = front ++ rest) :
    positionIn cs (markLength cs + front.length) = .after front := by
  rw [positionIn, List.extract_eq_take_drop, h, Nat.add_sub_cancel_left, List.take_left]

theorem drop_markLength_add {cs front rest : List Char}
    (h : cs.drop (markLength cs) = front ++ rest) :
    cs.drop (markLength cs + front.length) = rest := by
  rw [← List.drop_drop, h, List.drop_left]

theorem positionIn_add {cs : List Char} {o : Nat} (ho : markLength cs ≤ o) (n : Nat) :
    positionIn cs (o + n) = (positionIn cs o).advance (cs.extract o (o + n)) := by
  have hdrop : (cs.drop (markLength cs)).drop (o - markLength cs) = cs.drop o := by
    rw [List.drop_drop, Nat.add_sub_cancel' ho]
  have hlen : o + n - markLength cs = (o - markLength cs) + n := by omega
  rw [positionIn, positionIn, ← Position.after_append]
  simp only [List.extract_eq_take_drop]
  rw [hlen, List.take_add, hdrop, Nat.add_sub_cancel_left]

theorem length_extract {cs : List Char} {i j : Nat} (hj : j ≤ cs.length) :
    (cs.extract i j).length = j - i := by
  rw [List.extract_eq_take_drop, List.length_take, List.length_drop]
  omega

/-- Positions come in the order of their offsets. -/
theorem positionIn_lt {cs : List Char} {o o' : Nat} (ho : markLength cs ≤ o) (hlt : o < o')
    (hle : o' ≤ cs.length) : positionIn cs o < positionIn cs o' := by
  obtain ⟨n, rfl⟩ := Nat.exists_eq_add_of_lt hlt
  rw [Nat.add_assoc] at hle ⊢
  have hlength : (cs.extract o (o + (n + 1))).length = n + 1 := by
    rw [length_extract hle, Nat.add_sub_cancel_left]
  rw [positionIn_add ho]
  exact Position.lt_advance _ (List.ne_nil_of_length_eq_add_one hlength)

/-- No other offset has the same position. -/
theorem positionIn_injective {cs : List Char} {o o' : Nat} (ho : markLength cs ≤ o)
    (ho' : markLength cs ≤ o') (hle : o ≤ cs.length) (hle' : o' ≤ cs.length)
    (h : positionIn cs o = positionIn cs o') : o = o' := by
  obtain hlt | heq | hlt := Nat.lt_trichotomy o o'
  · exact absurd h (ne_of_lt (positionIn_lt ho hlt hle'))
  · exact heq
  · exact absurd h.symm (ne_of_lt (positionIn_lt ho' hlt hle))

end Lexer

open Lexer (markLength positionIn)

structure Token.StandsAt (cs : List Char) (t : Token) (offset : Nat) : Prop where
  mark_le : markLength cs ≤ offset
  stop_le : offset + t.length ≤ cs.length
  text : t.text.toList = cs.extract offset (offset + t.length)
  start : t.start = positionIn cs offset

namespace Token.StandsAt

variable {cs : List Char} {t : Token} {o o' : Nat}

theorem unique (h : t.StandsAt cs o) (h' : t.StandsAt cs o') : o = o' :=
  Lexer.positionIn_injective h.mark_le h'.mark_le (Nat.le_of_add_right_le h.stop_le)
    (Nat.le_of_add_right_le h'.stop_le) (h.start.symm.trans h'.start)

/-- A part of the token stands where the part before it ends. -/
theorem part (h : t.StandsAt cs o) {front middle rest : List Char}
    (htext : t.text.toList = front ++ (middle ++ rest)) :
    cs.extract (o + front.length) (o + front.length + middle.length) = middle := by
  have hdrop : cs.drop o = t.text.toList ++ cs.drop (o + t.length) := by
    rw [h.text, List.extract_eq_take_drop, Nat.add_sub_cancel_left, ← List.drop_drop,
      List.take_append_drop]
  rw [List.extract_eq_take_drop, Nat.add_sub_cancel_left, ← List.drop_drop, hdrop, htext,
    List.append_assoc, List.drop_left, List.append_assoc, List.take_left]

theorem positionIn_eq (h : t.StandsAt cs o) {front rest : List Char}
    (htext : t.text.toList = front ++ rest) :
    positionIn cs (o + front.length) = t.start.advance front := by
  have htext : t.text.toList = [] ++ (front ++ rest) := htext
  have hpart : cs.extract o (o + front.length) = front := h.part htext
  rw [Lexer.positionIn_add h.mark_le, ← h.start, hpart]

theorem of_append {front rest : List Char}
    (hcs : cs.drop (markLength cs) = front ++ (t.text.toList ++ rest))
    (hstart : t.start = .after front) : t.StandsAt cs (markLength cs + front.length) where
  mark_le := Nat.le_add_right _ _
  stop_le := by
    have hlen := congrArg List.length hcs
    have := Lexer.markLength_le cs
    simp only [List.length_drop, List.length_append] at hlen
    rw [length]
    omega
  text := by
    rw [List.extract_eq_take_drop, Nat.add_sub_cancel_left, Lexer.drop_markLength_add hcs, length,
      List.take_left]
  start := by rw [hstart, Lexer.positionIn_eq hcs]

end Token.StandsAt

namespace Lexer

variable {options : LexerOptions} {inside : Bool} {source : List Char} {pos : Position}
  {trivia : List Comment} {gs front back : List Segment}

theorem segments_append (h : segments options inside source = front ++ back) :
    ∃ inside' rest, source = front.flatMap Segment.whole ++ rest ∧
      segments options inside' rest = back := by
  induction front generalizing inside source with
  | nil => exact ⟨inside, source, rfl, h⟩
  | cons g front ih =>
    cases source with
    | nil => simp [segments] at h
    | cons c cs =>
      rw [segments] at h
      obtain ⟨rfl, htail⟩ := List.cons.inj h
      obtain ⟨inside', rest, hrest, hback⟩ := ih htail
      refine ⟨inside', rest, ?_, hback⟩
      rw [List.flatMap_cons, List.append_assoc, ← hrest, Segment.whole, List.append_assoc,
        List.take_append_drop, List.cons_append, List.take_append_drop]

/-- From a segment on, the segments are those of the text from there on. -/
theorem segments_split {g : Segment} (h : segments options inside source = front ++ g :: back) :
    ∃ inside' c cs, source = front.flatMap Segment.whole ++ c :: cs ∧
      segments options inside' (c :: cs) = g :: back := by
  obtain ⟨inside', rest, hsource, hback⟩ := segments_append h
  cases rest with
  | nil => simp [segments] at hback
  | cons c cs => exact ⟨inside', c, cs, hsource, hback⟩

/-- A token ends the text or comes from a segment, and starts where the segments before it end. From
a segment on, the tokens are those of the segments after it. -/
theorem assemble_split {before after : List Token} {t : Token}
    (h : (assemble pos trivia gs).tokens = before ++ t :: after) :
    ∃ front back, gs = front ++ back ∧ t.start = pos.advance (front.flatMap Segment.whole) ∧
      (back = [] ∧ t.kind = .eof ∧ t.text = "" ∨
        ∃ g later, back = g :: later ∧ g.reading.piece = .token t.kind ∧
          t.text = String.ofList g.chars ∧
          (assemble (t.start.advance g.whole) [] later).tokens = after) := by
  induction gs generalizing pos trivia before with
  | nil =>
    obtain ⟨-, hlast⟩ | ⟨_, -, hnil⟩ := List.append_eq_cons_iff.mp h.symm
    · cases hlast
      exact ⟨[], [], rfl, rfl, .inl ⟨rfl, rfl, rfl⟩⟩
    · simp at hnil
  | cons g gs ih =>
    have hlater : ∀ {trivia before},
        (assemble (pos.advance g.whole) trivia gs).tokens = before ++ t :: after →
        ∃ front back, g :: gs = front ++ back ∧
          t.start = pos.advance (front.flatMap Segment.whole) ∧
          (back = [] ∧ t.kind = .eof ∧ t.text = "" ∨
            ∃ g' later, back = g' :: later ∧ g'.reading.piece = .token t.kind ∧
              t.text = String.ofList g'.chars ∧
              (assemble (t.start.advance g'.whole) [] later).tokens = after) := by
      intro trivia before h
      obtain ⟨front, back, rfl, hstart, hback⟩ := ih h
      refine ⟨g :: front, back, rfl, ?_, hback⟩
      rw [hstart, List.flatMap_cons, Position.advance_append]
    rw [assemble] at h
    cases hp : g.reading.piece with
    | token kind =>
      rw [hp] at h
      obtain ⟨-, hhere⟩ | ⟨before, -, htail⟩ := List.append_eq_cons_iff.mp h.symm
      · obtain ⟨rfl, rfl⟩ := List.cons.inj hhere
        exact ⟨[], g :: gs, rfl, rfl, .inr ⟨g, gs, rfl, hp, rfl, rfl⟩⟩
      · exact hlater htail
    | _ =>
      rw [hp] at h
      exact hlater h

theorem assemble_placed {t : Token} (ht : t ∈ (assemble pos trivia gs).tokens) :
    ∃ front rest, gs.flatMap Segment.whole = front ++ (t.text.toList ++ rest) ∧
      t.start = pos.advance front := by
  obtain ⟨before, after, htokens⟩ := List.append_of_mem ht
  obtain ⟨front, back, rfl, hstart, hback⟩ := assemble_split htokens
  obtain ⟨rfl, -, htext⟩ | ⟨g, later, rfl, -, htext, -⟩ := hback
  · exact ⟨front.flatMap Segment.whole, [], by simp [htext], hstart⟩
  · exact ⟨front.flatMap Segment.whole, g.skipped ++ later.flatMap Segment.whole,
      by simp [htext, Segment.whole], hstart⟩

/-- Each token stands at an offset of the source. -/
theorem tokenizeWith_standsAt {options : LexerOptions} {source : String} {t : Token}
    (ht : t ∈ (tokenizeWith options source).tokens) : ∃ o, t.StandsAt source.toList o := by
  rw [tokenizeWith_eq] at ht
  obtain ⟨front, rest, hwhole, hstart⟩ := assemble_placed ht
  rw [sourceSegments, segments_whole] at hwhole
  exact ⟨_, .of_append hwhole (hstart.trans (Position.advance_start front))⟩

/-- What is read at a token, and where the tokens after it come from. -/
theorem tokenizeWith_split {options : LexerOptions} {source : String} {before after : List Token}
    {t : Token} (h : (tokenizeWith options source).tokens = before ++ t :: after)
    (hkind : t.kind ≠ .eof) :
    ∃ inside front c cs, source.toList.drop (markLength source.toList) = front ++ c :: cs ∧
      t.start = .after front ∧
      let reading := readAt options inside c cs
      let rest := cs.drop reading.more
      let n := skippedAfter t.kind rest
      reading.piece = .token t.kind ∧ t.text.toList = c :: cs.take reading.more ∧
        (assemble (t.stop.advance (rest.take n)) []
          (segments options (insideAfter inside t.kind) (rest.drop n))).tokens = after := by
  rw [tokenizeWith_eq] at h
  obtain ⟨front, back, hgs, hstart, hback⟩ := assemble_split h
  obtain ⟨-, heof, -⟩ | ⟨g, back, rfl, hpiece, htext, hafter⟩ := hback
  · exact absurd heof hkind
  have htext : t.text.toList = g.chars := by rw [htext, String.toList_ofList]
  obtain ⟨inside, c, cs, hsource, hhere⟩ := segments_split hgs
  rw [segments] at hhere
  obtain ⟨rfl, rfl⟩ := List.cons.inj hhere
  change (readAt options inside c cs).piece = .token t.kind at hpiece
  refine ⟨inside, front.flatMap Segment.whole, c, cs, hsource,
    hstart.trans (Position.advance_start _), hpiece, htext, ?_⟩
  rw [← hafter, Segment.whole, Position.advance_append, ← htext, Token.stop]
  simp only [hpiece]
  rfl

end Lexer

end PhpSyntax
