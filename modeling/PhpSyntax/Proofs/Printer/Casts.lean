import Mathlib.Data.Option.Basic
import PhpSyntax.Proofs.Printer.Respaced

namespace PhpSyntax

namespace Token

def followsOn (line : Nat) (t : Token) : Bool :=
  t.trivia = [] && t.start.line = line

def isCastType (t : Token) : Bool :=
  t.kind = .identifier &&
    Lexer.castTypes.contains (String.ofList (t.text.toList.map Char.toLower))

end Token

def closesOn (line : Nat) : List Token → Bool
  | [] => false
  | t :: _ => t.isPunctuator .rightParenthesis && t.followsOn line

def castsOn (line : Nat) : List Token → Bool
  | [] => false
  | t :: ts => t.isCastType && t.followsOn line && closesOn line ts

/-- Whether some tokens spell a cast on one line, with nothing but white space between them. -/
def hidesCast : List Token → Bool
  | [] => false
  | t :: ts => t.isPunctuator .leftParenthesis && castsOn t.start.line ts || hidesCast ts

namespace Lexer

variable {options : LexerOptions} {cs : List Char}

section Code

def blanks (w : List Char) : List Segment :=
  w.map fun c => ⟨.sound .blank 0, [c], []⟩

theorem segments_blanks {w : List Char} (hw : ∀ c ∈ w, Text.isWhiteSpace c = true)
    (rest : List Char) :
    segments options true (w ++ rest) = blanks w ++ segments options true rest := by
  induction w with
  | nil => rfl
  | cons c w ih =>
    rw [List.forall_mem_cons] at hw
    have hreading : readAt options true c (w ++ rest) = .sound .blank 0 := by
      show readCode c (w ++ rest) = _
      rw [readCode, if_pos hw.1]
    rw [List.cons_append, segments, hreading]
    simp [Reading.sound, Piece.vanishing, Piece.insideAfter, blanks, ih hw.2]

theorem respaced_blanks (pending w : List Char) (gs : List Segment) :
    respaced pending (blanks w ++ gs) = respaced (pending ++ w) gs := by
  induction w generalizing pending with
  | nil => simp [blanks]
  | cons c w ih =>
    have := ih (pending ++ [c])
    simpa [blanks, respaced, Reading.sound, Piece.isKept, Segment.whole] using this

theorem assemble_blanks (pos : Position) (trivia : List Comment) (w : List Char)
    (gs : List Segment) :
    assemble pos trivia (blanks w ++ gs) = assemble (pos.advance w) trivia gs := by
  induction w generalizing pos with
  | nil => rfl
  | cons c w ih =>
    have := ih (pos.advance [c])
    simpa [blanks, assemble, Reading.sound, Segment.whole, Segment.faults] using this

theorem readCode_kept {c : Char} (hc : Text.isWhiteSpace c = false)
    (hf : (readCode c cs).fault = none) : (readCode c cs).piece.isKept = true := by
  have hfits := readCode_fits c cs
  unfold Reading.Fits at hfits
  cases hp : (readCode c cs).piece with
  | blank =>
    rw [hp] at hfits
    exact absurd (hc.symm.trans hfits.2.2) Bool.false_ne_true
  | stray =>
    rw [hp] at hfits
    rw [hfits.2] at hf
    cases hf
  | comment | token => rfl

/-- A gap of code and what follows it. -/
theorem code_next (hsound : ∀ g ∈ segments options true cs, g.reading.fault = none)
    (pos : Position) (trivia : List Comment) : ∃ w rest,
    (∀ c ∈ w, Text.isWhiteSpace c = true) ∧ startsWith Text.isWhiteSpace rest = false ∧
    cs = w ++ rest ∧
    (∀ g ∈ segments options true rest, g.reading.fault = none) ∧
    respaced [] (segments options true cs) =
      normalise w ++ respaced [] (segments options true rest) ∧
    (respaced [] (segments options true rest)).head? = rest.head? ∧
    assemble pos trivia (segments options true cs) =
      assemble (pos.advance w) trivia (segments options true rest) := by
  have hw : ∀ c ∈ cs.takeWhile Text.isWhiteSpace, Text.isWhiteSpace c = true :=
    fun c hc => List.mem_takeWhile_imp hc
  have hcs : cs = cs.takeWhile Text.isWhiteSpace ++ cs.dropWhile Text.isWhiteSpace :=
    List.takeWhile_append_dropWhile.symm
  have hstart : startsWith Text.isWhiteSpace (cs.dropWhile Text.isWhiteSpace) = false :=
    startsWith_dropWhile cs
  generalize cs.takeWhile Text.isWhiteSpace = w at hcs hw
  generalize cs.dropWhile Text.isWhiteSpace = rest at hcs hstart
  subst hcs
  rw [segments_blanks hw] at hsound ⊢
  rw [respaced_blanks, assemble_blanks, List.nil_append]
  have hrest := (List.forall_mem_append.mp hsound).2
  refine ⟨w, rest, hw, hstart, rfl, hrest, ?_, ?_, rfl⟩
  all_goals cases rest with
    | nil => rw [segments]; simp [respaced, normalise]
    | cons c rest =>
      rw [segments] at hrest
      have hk : (readAt options true c rest).piece.isKept = true :=
        readCode_kept hstart (hrest _ List.mem_cons_self)
      rw [segments, respaced, if_pos hk]
      simp [respaced, normalise, hk]

/-- The first token of code, where a comment stands or where the token itself does. -/
theorem assemble_first (options : LexerOptions) {c : Char} (hc : Text.isWhiteSpace c = false)
    (hf : (readCode c cs).fault = none) (pos : Position) :
    ((readCode c cs).piece = .comment ∧ ∃ t ts,
      (assemble pos [] (segments options true (c :: cs))).tokens = t :: ts ∧ t.trivia ≠ []) ∨
    ∃ kind ts, (readCode c cs).piece = .token kind ∧
      (assemble pos [] (segments options true (c :: cs))).tokens =
        ⟨kind, String.ofList (c :: cs.take (readCode c cs).more), pos, []⟩ :: ts := by
  have hk := readCode_kept hc hf
  have hreading : readAt options true c cs = readCode c cs := rfl
  rw [segments, hreading, assemble]
  cases hp : (readCode c cs).piece with
  | blank | stray => rw [hp] at hk; cases hk
  | comment => exact .inl ⟨rfl, assemble_trivia _ (by simp) _⟩
  | token kind => exact .inr ⟨kind, _, rfl, rfl⟩

end Code

section Blanks

variable {w rest : List Char}

theorem isBlank_whiteSpace {c : Char} (h : Text.isWhiteSpace c = false) : isBlank c = false := by
  rw [Bool.eq_false_iff]
  intro hb
  simp only [isBlank, Bool.or_eq_true, decide_eq_true_eq] at hb
  obtain rfl | rfl := hb <;> cases h

theorem dropWhile_normalise (h : '\n' ∉ w) (hrest : startsWith Text.isWhiteSpace rest = false) :
    (normalise w ++ rest).dropWhile isBlank = rest := by
  rw [normalise_of_not_mem h]
  refine dropWhile_append_of ?_ ?_
  · intro c hc
    obtain ⟨-, rfl⟩ := List.mem_replicate.mp hc
    rfl
  · cases rest with
    | nil => rfl
    | cons c rest => exact isBlank_whiteSpace hrest

theorem dropWhile_normalise_feed (h : '\n' ∈ w) (rest : List Char) : ∃ tail,
    (normalise w ++ rest).dropWhile isBlank = '\n' :: tail := by
  obtain ⟨n, hn⟩ := Nat.exists_eq_add_one.mpr (List.count_pos_iff.mpr h)
  rw [normalise, hn]
  exact ⟨_, rfl⟩

theorem advance_line_eq (pos : Position) : (pos.advance w).line = pos.line ↔ '\n' ∉ w := by
  rw [Position.advance_line, ← List.count_eq_zero]
  omega

end Blanks

theorem readCode_close : readCode ')' cs = .sound (.token .punctuator) 0 := rfl

/-- A closing parenthesis comes next among the tokens where only blanks are printed before it. -/
theorem closesOn_eq (hsound : ∀ g ∈ segments options true cs, g.reading.fault = none)
    (pos : Position) :
    closesOn pos.line (assemble pos [] (segments options true cs)).tokens =
      decide (((respaced [] (segments options true cs)).dropWhile isBlank).head? = some ')') := by
  obtain ⟨w, rest, hw, hstart, rfl, hrest, hrespaced, hhead, hassemble⟩ := code_next hsound pos []
  rw [hrespaced, hassemble]
  have hstart' :
      startsWith Text.isWhiteSpace (respaced [] (segments options true rest)) = false := by
    rw [startsWith, hhead, ← startsWith, hstart]
  have hprinted : ((normalise w ++ respaced [] (segments options true rest)).dropWhile
      isBlank).head? = some ')' ↔ '\n' ∉ w ∧ rest.head? = some ')' := by
    by_cases hn : '\n' ∈ w
    · obtain ⟨tail, htail⟩ :=
        dropWhile_normalise_feed hn (respaced [] (segments options true rest))
      simp [htail, hn]
    · rw [dropWhile_normalise hn hstart', hhead]
      simp [hn]
  simp only [hprinted]
  cases rest with
  | nil => rw [segments]; simp [assemble, closesOn, Token.isPunctuator]
  | cons c rest =>
    have hf : (readCode c rest).fault = none := by
      rw [segments] at hrest
      exact hrest _ List.mem_cons_self
    have hfirst := assemble_first options hstart hf (pos.advance w)
    by_cases hc : c = ')'
    · subst hc
      obtain ⟨hpiece, -⟩ | ⟨kind, ts, hpiece, htokens⟩ := hfirst
      · cases hpiece
      · cases hpiece
        rw [htokens, readCode_close]
        simp [closesOn, Token.isPunctuator, Token.followsOn, advance_line_eq, Reading.sound,
          Punctuator.isSpelled, Punctuator.spelling]
    · have hnot : closesOn pos.line
          (assemble (pos.advance w) [] (segments options true (c :: rest))).tokens = false := by
        obtain ⟨-, t, ts, htokens, htrivia⟩ | ⟨kind, ts, -, htokens⟩ := hfirst
        · simp [htokens, closesOn, Token.followsOn, htrivia]
        · have htext : String.ofList (c :: rest.take (readCode c rest).more) ≠ ")" := by
            intro he
            have := congrArg String.toList he
            rw [String.toList_ofList] at this
            exact hc (List.cons.inj this).1
          generalize String.ofList (c :: rest.take (readCode c rest).more) = text at htokens htext
          simp [htokens, closesOn, Token.isPunctuator, Punctuator.isSpelled, Punctuator.spelling,
            htext]
      rw [hnot]
      simp [hc]

section Names

theorem nameLength_chars : ∀ x ∈ cs.take (nameLength cs), isNameChar x = true ∨ x = '\\' := by
  induction cs with
  | nil => simp
  | cons c cs ih =>
    rw [nameLength]
    split
    · next hc =>
      simp only [Bool.or_eq_true, Bool.and_eq_true, decide_eq_true_eq] at hc
      exact List.forall_mem_cons.mpr ⟨hc.imp id And.left, ih⟩
    · simp

theorem nameLength_stops : startsWith isNameChar (cs.drop (nameLength cs)) = false := by
  induction cs with
  | nil => rfl
  | cons c cs ih =>
    rw [nameLength]
    split
    · exact ih
    · next hc =>
      simp only [Bool.or_eq_true, not_or] at hc
      exact Bool.eq_false_iff.mpr hc.1

theorem readCode_name {c : Char} (hc : c.isAlpha = true) :
    readCode c cs = .sound (.token .identifier) (nameLength cs) := by
  have hwhite : Text.isWhiteSpace c = false := by
    rw [Bool.eq_false_iff]
    intro hw
    exact Bool.false_ne_true ((Visible.isAlpha c hw).symm.trans hc)
  have ne : ∀ {x : Char}, x.isAlpha = false → c ≠ x := by
    rintro x hx rfl
    exact Bool.false_ne_true (hx.symm.trans hc)
  have hname : isNameStart c = true := by simp [isNameStart, hc]
  simp [readCode, hwhite, ne (x := '?') rfl, ne (x := '#') rfl, ne (x := '/') rfl,
    ne (x := '$') rfl, hname]

theorem alpha_of_castType {xs : List Char}
    (h : castTypes.contains (String.ofList (xs.map Char.toLower)) = true) :
    ∀ x ∈ xs, x.isAlpha = true := by
  have hlower : castTypes.all (·.toList.all Char.isLower) = true := by decide
  simp only [List.all_eq_true] at hlower
  intro x hx
  have hword : x.toLower.isLower = true := by
    refine hlower _ (List.contains_iff_mem.mp h) _ ?_
    rw [String.toList_ofList]
    exact List.mem_map_of_mem hx
  unfold Char.toLower at hword
  split at hword
  · next hupper =>
    exact Bool.or_eq_true_iff.mpr (.inl (decide_eq_true hupper))
  · exact Bool.or_eq_true_iff.mpr (.inr hword)

end Names

theorem castLength?_isSome (cs : List Char) : (castLength? cs).isSome =
    (castTypes.contains
        (String.ofList (((cs.dropWhile isBlank).takeWhile Char.isAlpha).map Char.toLower)) &&
      decide ((((cs.dropWhile isBlank).dropWhile Char.isAlpha).dropWhile isBlank).head? =
        some ')')) := by
  unfold castLength?
  dsimp only
  cases ((cs.dropWhile isBlank).dropWhile Char.isAlpha).dropWhile isBlank with
  | nil => simp [stripChar?]
  | cons c tail =>
    by_cases hc : c = ')'
    · by_cases ht : String.ofList
        (((cs.dropWhile isBlank).takeWhile Char.isAlpha).map Char.toLower) ∈ castTypes
      · simp [stripChar?, hc, guard, ht]
      · simp [stripChar?, hc, guard, ht]
    · simp [stripChar?, hc]

theorem noCast :
    castTypes.contains (String.ofList (([] : List Char).map Char.toLower)) = false := by
  decide

/-- A cast among the tokens starts with a letter, on the line of its parenthesis. -/
theorem castsOn_start {rest : List Char} {pos : Position} {line : Nat}
    (hstart : startsWith Text.isWhiteSpace rest = false)
    (hsound : ∀ g ∈ segments options true rest, g.reading.fault = none)
    (h : castsOn line (assemble pos [] (segments options true rest)).tokens = true) :
    startsWith Char.isAlpha rest = true ∧ pos.line = line := by
  cases rest with
  | nil =>
    rw [segments] at h
    simp [assemble, castsOn, Token.isCastType] at h
  | cons c rest =>
    have hf : (readCode c rest).fault = none := by
      rw [segments] at hsound
      exact hsound _ List.mem_cons_self
    obtain ⟨-, t, ts, htokens, htrivia⟩ | ⟨kind, ts, -, htokens⟩ :=
      assemble_first options hstart hf pos
    · simp [htokens, castsOn, Token.followsOn, htrivia] at h
    · rw [htokens, castsOn, Bool.and_eq_true, Bool.and_eq_true] at h
      obtain ⟨⟨htype, hfollows⟩, -⟩ := h
      simp only [Token.isCastType, Bool.and_eq_true, String.toList_ofList] at htype
      simp only [Token.followsOn, Bool.and_eq_true, decide_eq_true_eq] at hfollows
      exact ⟨alpha_of_castType htype.2 c List.mem_cons_self, hfollows.2⟩

/-- A printed cast starts with a letter, on the line of its parenthesis. -/
theorem castLength?_start {w rest : List Char}
    (hstart : startsWith Text.isWhiteSpace rest = false)
    (h : (castLength? (normalise w ++ rest)).isSome = true) :
    startsWith Char.isAlpha rest = true ∧ '\n' ∉ w := by
  rw [castLength?_isSome, Bool.and_eq_true] at h
  by_cases hn : '\n' ∈ w
  · obtain ⟨tail, htail⟩ := dropWhile_normalise_feed hn rest
    rw [htail] at h
    exact absurd (noCast.symm.trans h.1) Bool.false_ne_true
  · rw [dropWhile_normalise hn hstart] at h
    refine ⟨?_, hn⟩
    cases rest with
    | nil => exact absurd (noCast.symm.trans h.1) Bool.false_ne_true
    | cons c rest =>
      show c.isAlpha = true
      by_contra hc
      rw [List.takeWhile_cons_of_neg hc] at h
      exact absurd (noCast.symm.trans h.1) Bool.false_ne_true

/-- The word of a cast is the whole name that starts there. -/
theorem castsOn_name {c : Char} (hc : c.isAlpha = true)
    (hsound : ∀ g ∈ segments options true (c :: cs), g.reading.fault = none) (pos : Position) :
    castsOn pos.line (assemble pos [] (segments options true (c :: cs))).tokens =
      (castTypes.contains (String.ofList (((respaced []
          (segments options true (c :: cs))).takeWhile Char.isAlpha).map Char.toLower)) &&
        decide ((((respaced [] (segments options true (c :: cs))).dropWhile
          Char.isAlpha).dropWhile isBlank).head? = some ')')) := by
  have hreading : readAt options true c cs = .sound (.token .identifier) (nameLength cs) :=
    readCode_name hc
  have hsegments : segments options true (c :: cs) =
      ⟨.sound (.token .identifier) (nameLength cs), c :: cs.take (nameLength cs), []⟩ ::
        segments options true (cs.drop (nameLength cs)) := by
    rw [segments, hreading]
    rfl
  rw [hsegments] at hsound ⊢
  have hgs := (List.forall_mem_cons.mp hsound).2
  have hchars : ∀ x ∈ c :: cs.take (nameLength cs), isNameChar x = true ∨ x = '\\' :=
    List.forall_mem_cons.mpr ⟨.inl (by simp [isNameChar, isNameStart, hc]), nameLength_chars⟩
  have hstop : startsWith Char.isAlpha
      (respaced [] (segments options true (cs.drop (nameLength cs)))) = false := by
    have hg : UpToGap (cs.drop (nameLength cs))
        (respaced [] (segments options true (cs.drop (nameLength cs)))) := by
      simpa [segments_whole] using
        upToGap_respaced (List.forall_mem_nil _) (segments_fits options true _) hgs
    rw [Bool.eq_false_iff]
    intro hs
    have hname : startsWith isNameChar (cs.drop (nameLength cs)) = true := by
      have := hg.startsWith_of rfl rfl hs
      cases hcs : cs.drop (nameLength cs) with
      | nil => rw [hcs] at this; cases this
      | cons d ds =>
        rw [hcs] at this
        have hd : d.isAlpha = true := this
        simp [startsWith, isNameChar, isNameStart, hd]
    exact Bool.false_ne_true (nameLength_stops.symm.trans hname)
  have hrespaced : respaced [] (⟨.sound (.token .identifier) (nameLength cs),
      c :: cs.take (nameLength cs), []⟩ :: segments options true (cs.drop (nameLength cs))) =
      (c :: cs.take (nameLength cs)) ++
        respaced [] (segments options true (cs.drop (nameLength cs))) := rfl
  generalize hname : c :: cs.take (nameLength cs) = name at hchars hrespaced ⊢
  have hline : (pos.advance name).line = pos.line := by
    rw [advance_line_eq]
    exact fun hmem => absurd (hchars _ hmem) (by decide)
  have hclose := closesOn_eq hgs (pos.advance name)
  rw [hline] at hclose
  have htokens : castsOn pos.line (assemble pos [] (⟨.sound (.token .identifier) (nameLength cs),
      name, []⟩ :: segments options true (cs.drop (nameLength cs)))).tokens =
      (castTypes.contains (String.ofList (name.map Char.toLower)) &&
        decide (((respaced [] (segments options true (cs.drop (nameLength cs)))).dropWhile
          isBlank).head? = some ')')) := by
    simp [assemble, castsOn, Reading.sound, Token.isCastType, Token.followsOn, Segment.whole,
      hclose]
  rw [htokens, hrespaced]
  by_cases hall : ∀ x ∈ name, x.isAlpha = true
  · rw [takeWhile_append_of hall hstop, dropWhile_append_of hall hstop]
  · -- the name goes on after its letters, and neither with a blank nor with a parenthesis
    have htype : castTypes.contains (String.ofList (name.map Char.toLower)) = false :=
      Bool.eq_false_iff.mpr fun ht => hall (alpha_of_castType ht)
    obtain ⟨x, post, hdrop⟩ := List.exists_cons_of_ne_nil (mt List.dropWhile_eq_nil_iff.mp hall)
    have hx : x ∈ name := (List.dropWhile_suffix _).mem (hdrop ▸ List.mem_cons_self)
    have ne : ∀ {y : Char}, ¬ (isNameChar y = true ∨ y = '\\') → x ≠ y := by
      rintro y hy rfl
      exact hy (hchars x hx)
    have hblank : isBlank x = false := by
      simp [isBlank, ne (y := ' ') (by decide), ne (y := '\t') (by decide)]
    rw [htype, List.dropWhile_append, hdrop]
    simp [hblank, ne (y := ')') (by decide)]

/-- The rest of a cast comes next among the tokens exactly where it is printed like one. -/
theorem castsOn_eq (hsound : ∀ g ∈ segments options true cs, g.reading.fault = none)
    (pos : Position) :
    castsOn pos.line (assemble pos [] (segments options true cs)).tokens =
      (castLength? (respaced [] (segments options true cs))).isSome := by
  obtain ⟨w, rest, hw, hstart, rfl, hrest, hrespaced, hhead, hassemble⟩ := code_next hsound pos []
  have hprinted : ∀ p : Char → Bool,
      startsWith p (respaced [] (segments options true rest)) = startsWith p rest := by
    intro p
    rw [startsWith, hhead, ← startsWith]
  have hstart' := (hprinted Text.isWhiteSpace).trans hstart
  rw [hrespaced, hassemble]
  by_cases h : startsWith Char.isAlpha rest = true ∧ '\n' ∉ w
  · obtain ⟨halpha, hline⟩ := h
    rw [castLength?_isSome, dropWhile_normalise hline hstart', ← (advance_line_eq pos).mpr hline]
    cases rest with
    | nil => cases halpha
    | cons c rest => exact castsOn_name halpha hrest _
  · have hnot : (castLength? (normalise w ++ respaced [] (segments options true rest))).isSome =
        false := by
      rw [Bool.eq_false_iff]
      exact fun hs => h (by simpa [hprinted] using castLength?_start hstart' hs)
    rw [hnot, Bool.eq_false_iff]
    intro hs
    have := castsOn_start hstart hrest hs
    exact h (this.imp id (advance_line_eq pos).mp)

end Lexer

end PhpSyntax
