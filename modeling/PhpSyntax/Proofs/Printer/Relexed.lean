import PhpSyntax.Proofs.Grammar.Renamed.File
import PhpSyntax.Proofs.Printer.Casts

namespace PhpSyntax

namespace Lexer

open Grammar (isInfix)

variable {options : LexerOptions}

abbrev Alternate (ts : List Token) : Prop :=
  ts.IsChain fun t u => ¬ (isInfix t = true ∧ isInfix u = true)

section Angles

variable {cs : List Char}

theorem readCode_shift (h : heredocHeader? cs = none) :
    readCode '<' ('<' :: '<' :: cs) = .sound (.token .punctuator) 1 := by
  simp [readCode, h]
  rfl

theorem longestAt?_less {c : Char} (hl : c ≠ '<') (he : c ≠ '=') (hg : c ≠ '>') :
    Punctuator.longestAt? ('<' :: c :: cs) = some .lessThan := by
  have hprefix : ∀ p : Punctuator,
      p.spelling.toList.isPrefixOf ('<' :: c :: cs) = decide (p = .lessThan) := by
    intro p
    cases p <;> simp [Punctuator.spelling, List.isPrefixOf, hl.symm, he.symm, hg.symm]
  rw [Punctuator.longestAt?, funext hprefix]
  decide

theorem readCode_less {c : Char} (hl : c ≠ '<') (he : c ≠ '=') (hg : c ≠ '>') :
    readCode '<' (c :: cs) = .sound (.token .punctuator) 0 := by
  have hspace : Text.isWhiteSpace '<' = false := by decide
  have hname : isNameStart '<' = false := by decide
  simp [readCode, hspace, hname, readPunctuator, hl.symm, longestAt?_less hl he hg]
  rfl

/-- What only a change of gaps would make the header of a heredoc comes after two operators. -/
theorem heredocHeader?_hidden {cs ds : List Char} (hg : UpToGap cs ds) {t : Token}
    (ht : isInfix t = true) {pos : Position}
    (h : Alternate (t :: (assemble pos [] (segments options true ('<' :: cs))).tokens)) :
    heredocHeader? ds = none := by
  by_contra hheader
  have first : ∀ {x : Char}, Text.isWhiteSpace x = false →
      (∀ tail, heredocHeader? (x :: tail) = none) → cs.head? ≠ some x := by
    intro x hx hnone hhead
    obtain ⟨tail, rfl⟩ := List.head?_eq_some_iff.mp ((hg.head?_iff hx).mpr hhead)
    exact hheader (hnone tail)
  cases cs with
  | nil =>
    cases hg
    exact hheader rfl
  | cons c cs =>
    have hreading : readAt options true '<' (c :: cs) = .sound (.token .punctuator) 0 := by
      refine readCode_less ?_ ?_ ?_ <;> rintro rfl
      · exact first (x := '<') rfl (fun _ => rfl) rfl
      · exact first (x := '=') rfl (fun _ => rfl) rfl
      · exact first (x := '>') rfl (fun _ => rfl) rfl
    rw [segments, hreading] at h
    have hnext := (List.isChain_cons_cons.mp h).1
    exact hnext ⟨ht, rfl⟩

end Angles

theorem readCode_open {cs : List Char} : readCode '(' cs =
    match castLength? cs with
    | some more => .sound (.token .cast) more
    | none => .sound (.token .punctuator) 0 := by
  cases h : castLength? cs <;> simp [readCode, h] <;> rfl

section Printed

variable {inside : Bool} {c : Char} {cs : List Char}

/-- A reading of a text stays where only gaps after it change, unless a header or a cast appears. -/
theorem readAt_keeps {rest' : List Char} (hf : (readAt options inside c cs).fault = none)
    (hg : UpToGap (cs.drop (readAt options inside c cs).more) rest')
    (hheader : inside = true → c = '<' → "<<".toList.isPrefixOf cs = true →
      heredocHeader? (cs.drop 2) = none →
      heredocHeader? ((cs.take (readAt options inside c cs).more ++ rest').drop 2) = none)
    (hcast : inside = true → c = '(' → castLength? cs = none →
      castLength? (cs.take (readAt options inside c cs).more ++ rest') = none) :
    readAt options inside c (cs.take (readAt options inside c cs).more ++ rest') =
      readAt options inside c cs := by
  generalize hreading : readAt options inside c cs = reading at *
  have hcs : cs.take reading.more ++ cs.drop reading.more = cs := List.take_append_drop ..
  by_cases hlength : reading.more ≤ cs.length
  · have hbody : reading.more = (cs.take reading.more).length :=
      (List.length_take_of_le hlength).symm
    generalize cs.take reading.more = body at *
    generalize cs.drop reading.more = rest at *
    subst hcs
    subst hreading
    cases inside with
    | false => exact readHtml_keeps options hg hbody hf
    | true => exact readCode_keeps hg (hheader rfl) (hcast rfl) hbody hf
  · have hrest : cs.drop reading.more = [] := List.drop_of_length_le (by omega)
    rw [hrest] at hg hcs
    rw [hg.eq_nil, hcs, hreading]

/-- What follows a piece is printed after its printed gap, which vanishes where the gap did. -/
theorem vanishing_respaced (options : LexerOptions) (inside : Bool) (piece : Piece)
    (rest : List Char) :
    let next := segments options (piece.insideAfter inside) (rest.drop (piece.vanishing rest))
    respaced (rest.take (piece.vanishing rest)) next =
        normalise (rest.take (piece.vanishing rest)) ++ respaced [] next ∧
      piece.vanishing (respaced (rest.take (piece.vanishing rest)) next) =
        (normalise (rest.take (piece.vanishing rest))).length := by
  cases piece with
  | blank | stray | comment => exact ⟨rfl, rfl⟩
  | token kind =>
    cases kind with
    | closeTag => exact ⟨respaced_html _, skippedAfter_respaced rest⟩
    | _ => exact ⟨rfl, rfl⟩

theorem take_append_more {more : Nat} {rest' : List Char} (h : UpToGap (cs.drop more) rest') :
    (cs.take more ++ rest').take more = cs.take more ∧
      (cs.take more ++ rest').drop more = rest' := by
  by_cases hlength : more ≤ cs.length
  · have hbody : (cs.take more).length = more := List.length_take_of_le hlength
    exact ⟨List.take_left' hbody, List.drop_left' hbody⟩
  · have hrest : cs.drop more = [] := List.drop_of_length_le (by omega)
    rw [hrest] at h
    rw [h.eq_nil, List.append_nil, List.take_take, Nat.min_self, List.drop_take, Nat.sub_self]
    exact ⟨rfl, rfl⟩

/-- A printed piece that is read as before. -/
theorem assemble_kept {g : Segment} {gs : List Segment}
    (hseg : segments options inside (c :: cs) = g :: gs)
    (hg : UpToGap (cs.drop g.reading.more) (respaced g.skipped gs))
    (hsame : readAt options inside c (cs.take g.reading.more ++ respaced g.skipped gs) = g.reading)
    (pos : Position) (trivia : List Comment) :
    assemble pos trivia (segments options inside (g.chars ++ respaced g.skipped gs)) =
      assemble pos trivia
        (g :: segments options (g.reading.piece.insideAfter inside) (respaced [] gs)) := by
  rw [segments] at hseg
  cases hseg
  dsimp only at hg hsame ⊢
  obtain ⟨htake, hdrop⟩ := take_append_more hg
  obtain ⟨hrespaced, hvanishing⟩ := vanishing_respaced options inside
    (readAt options inside c cs).piece (cs.drop (readAt options inside c cs).more)
  rw [List.cons_append, segments, hsame, htake, hdrop, hvanishing, hrespaced, List.take_left,
    List.drop_left]
  simp only [assemble, Segment.whole, Segment.faults, Position.advance_append, advance_normalise]

theorem assemble_gap {pending : List Char} (hp : ∀ d ∈ pending, Text.isWhiteSpace d = true)
    (hinside : inside = false → pending = []) (pos : Position) (trivia : List Comment) :
    assemble pos trivia (segments options inside (normalise pending ++ cs)) =
      assemble (pos.advance pending) trivia (segments options inside cs) := by
  cases inside with
  | false =>
    obtain rfl := hinside rfl
    rfl
  | true =>
    have hprinted : ∀ d ∈ normalise pending, Text.isWhiteSpace d = true := by
      intro d hd
      obtain rfl | rfl := mem_normalise hd <;> rfl
    rw [segments_blanks hprinted, assemble_blanks, advance_normalise]

theorem readHtml_ne_punctuator (options : LexerOptions) (c : Char) (cs : List Char) :
    (readHtml options c cs).piece ≠ .token .punctuator := by
  unfold readHtml
  split
  · next h => obtain rfl | rfl := openTagAt_kind h <;> nofun
  · nofun

/-- A place where a cast may appear is an opening parenthesis that is none. -/
theorem readAt_open {kind : TokenKind} {body : List Char} {pos : Position} {trivia : List Comment}
    (hp : (readAt options inside c cs).piece = .token kind)
    (hopen : (⟨kind, String.ofList (c :: body), pos, trivia⟩ : Token).isPunctuator
      .leftParenthesis = true) :
    inside = true ∧ c = '(' ∧ castLength? cs = none := by
  simp only [Token.isPunctuator, Punctuator.isSpelled, Bool.and_eq_true, decide_eq_true_eq] at hopen
  obtain ⟨rfl, htext⟩ := hopen
  have hchars := congrArg String.toList htext
  rw [String.toList_ofList] at hchars
  obtain ⟨rfl, -⟩ := List.cons.inj hchars
  cases inside with
  | false => exact absurd hp (readHtml_ne_punctuator options '(' cs)
  | true =>
    refine ⟨rfl, rfl, ?_⟩
    change (readCode '(' cs).piece = _ at hp
    rw [readCode_open] at hp
    cases hcast : castLength? cs with
    | none => rfl
    | some more =>
      rw [hcast] at hp
      cases hp

/-- The segments after the first with printed gaps. -/
theorem upToGap_after {g : Segment} {gs : List Segment}
    (hseg : segments options inside (c :: cs) = g :: gs)
    (hsound : ∀ g ∈ gs, g.reading.fault = none) :
    UpToGap (cs.drop g.reading.more) (respaced g.skipped gs) := by
  have hfits := segments_fits options inside (c :: cs)
  rw [hseg, List.forall_mem_cons] at hfits
  have hrest : g.skipped ++ gs.flatMap Segment.whole = cs.drop g.reading.more := by
    rw [segments] at hseg
    cases hseg
    rw [segments_whole, List.take_append_drop]
  exact hrest ▸ upToGap_respaced hfits.1.skips hfits.2 hsound

theorem header_stays_hidden {g : Segment} {gs : List Segment}
    (hseg : segments options true ('<' :: cs) = g :: gs)
    (hg : UpToGap (cs.drop g.reading.more) (respaced g.skipped gs))
    {pos : Position} {trivia : List Comment}
    (hchain : Alternate (assemble pos trivia (g :: gs)).tokens)
    (hangle : "<<".toList.isPrefixOf cs = true) (hnone : heredocHeader? (cs.drop 2) = none) :
    heredocHeader? ((cs.take g.reading.more ++ respaced g.skipped gs).drop 2) = none := by
  obtain ⟨after, rfl⟩ := List.isPrefixOf_iff_prefix.mp hangle
  have hreading : readAt options true '<' ('<' :: '<' :: after) = .sound (.token .punctuator) 1 :=
    readCode_shift hnone
  change segments options true ('<' :: '<' :: '<' :: after) = g :: gs at hseg
  rw [segments, hreading] at hseg
  cases hseg
  change UpToGap ('<' :: after) (respaced [] (segments options true ('<' :: after))) at hg
  change heredocHeader? ((respaced [] (segments options true ('<' :: after))).drop 1) = none
  generalize hprinted : respaced [] (segments options true ('<' :: after)) = printed at hg
  cases hg with
  | same _ hg => exact heredocHeader?_hidden hg (t := ⟨.punctuator, "<<", pos, trivia⟩) rfl hchain
  | gap ha => cases ha

theorem segments_open {g : Segment} {gs : List Segment}
    (hseg : segments options true ('(' :: cs) = g :: gs) (hnone : castLength? cs = none) :
    g = ⟨.sound (.token .punctuator) 0, ['('], []⟩ ∧ gs = segments options true cs := by
  have hreading : readAt options true '(' cs = .sound (.token .punctuator) 0 := by
    show readCode '(' cs = _
    rw [readCode_open, hnone]
  rw [segments, hreading] at hseg
  cases hseg
  exact ⟨rfl, rfl⟩

/-- A cast that appears is a token of its own. -/
theorem cast_appears {more : Nat} (hcast : castLength? cs = some more) (options : LexerOptions)
    (pos : Position) (trivia : List Comment) :
    (assemble pos trivia (segments options true ('(' :: cs))).tokens.head?.map Token.kind =
      some .cast := by
  have hreading : readAt options true '(' cs = .sound (.token .cast) more := by
    show readCode '(' cs = _
    rw [readCode_open, hcast]
  rw [segments, hreading]
  rfl

end Printed

section Steps

variable {inside : Bool} {c : Char} {cs : List Char} {g : Segment} {gs : List Segment}
  {pos : Position} {trivia : List Comment}

theorem assemble_dropped (hk : g.reading.piece.isKept = false) (hf : g.reading.fault = none) :
    assemble pos trivia (g :: gs) = assemble (pos.advance g.whole) trivia gs := by
  rw [assemble]
  cases hp : g.reading.piece with
  | blank | stray => simp [Segment.faults, hf]
  | comment | token => simp [hp, Piece.isKept] at hk

theorem assemble_comment (hp : g.reading.piece = .comment) (hf : g.reading.fault = none) :
    assemble pos trivia (g :: gs) =
      assemble (pos.advance g.whole) (trivia ++ [⟨String.ofList g.chars, pos⟩]) gs := by
  simp [assemble, hp, Segment.faults, hf]

theorem assemble_token {kind : TokenKind} (hp : g.reading.piece = .token kind)
    (hf : g.reading.fault = none) :
    assemble pos trivia (g :: gs) =
      ⟨⟨kind, String.ofList g.chars, pos, trivia⟩ ::
          (assemble (pos.advance g.whole) [] gs).tokens,
        (assemble (pos.advance g.whole) [] gs).errors⟩ := by
  simp [assemble, hp, Segment.faults, hf]

/-- Unless they hide a cast, segments are read again from their text with printed gaps, the first
of which starts with `pending`. -/
def Relexes (options : LexerOptions) (inside : Bool) (pending : List Char) (gs : List Segment) :
    Prop :=
  ∀ pos trivia, Alternate (assemble (pos.advance pending) trivia gs).tokens →
    (assemble pos trivia (segments options inside (respaced pending gs)) =
        assemble (pos.advance pending) trivia gs ↔
      hidesCast (assemble (pos.advance pending) trivia gs).tokens = false)

/-- Where a piece is read as before, all depends on what follows. -/
theorem Relexes.kept (hk : g.reading.piece.isKept = true) (hf : g.reading.fault = none)
    (hchain : Alternate (assemble pos trivia (g :: gs)).tokens)
    (hcast : ∀ kind, g.reading.piece = .token kind →
      (⟨kind, String.ofList g.chars, pos, trivia⟩ : Token).isPunctuator .leftParenthesis = true →
      castsOn pos.line (assemble (pos.advance g.whole) [] gs).tokens = false)
    (ih : Relexes options inside [] gs) :
    assemble pos trivia (g :: segments options inside (respaced [] gs)) =
        assemble pos trivia (g :: gs) ↔
      hidesCast (assemble pos trivia (g :: gs)).tokens = false := by
  cases hp : g.reading.piece with
  | blank | stray => simp [hp, Piece.isKept] at hk
  | comment =>
    rw [assemble_comment hp hf] at hchain ⊢
    rw [assemble_comment hp hf]
    exact ih _ _ hchain
  | token kind =>
    rw [assemble_token hp hf] at hchain ⊢
    rw [assemble_token hp hf]
    have htail := ih (pos.advance g.whole) [] hchain.tail
    rw [hidesCast, Bool.or_eq_false_iff, Bool.and_eq_false_imp]
    refine ⟨fun h => ⟨hcast kind hp, htail.mp ?_⟩, fun h => by rw [htail.mpr h.2]; rfl⟩
    obtain ⟨htokens, herrors⟩ := Lexed.mk.inj h
    exact congrArg₂ Lexed.mk (List.cons.inj htokens).2 herrors

/-- An opening parenthesis with the gap after it. -/
theorem Relexes.stepOpen (hnone : castLength? cs = none)
    (hseg : segments options true ('(' :: cs) = g :: gs)
    (hsound : ∀ h ∈ g :: gs, h.reading.fault = none)
    (hchain : Alternate (assemble pos trivia (g :: gs)).tokens) (ih : Relexes options true [] gs) :
    assemble pos trivia (segments options true (g.chars ++ respaced g.skipped gs)) =
        assemble pos trivia (g :: gs) ↔
      hidesCast (assemble pos trivia (g :: gs)).tokens = false := by
  obtain ⟨hf, hafter⟩ := List.forall_mem_cons.mp hsound
  have hg := upToGap_after hseg hafter
  obtain ⟨rfl, rfl⟩ := segments_open hseg hnone
  have hcasts : castsOn pos.line
      (assemble (pos.advance ['(']) [] (segments options true cs)).tokens =
      (castLength? (respaced [] (segments options true cs))).isSome :=
    castsOn_eq hafter (pos.advance ['('])
  cases hprinted : castLength? (respaced [] (segments options true cs)) with
  | none =>
    have hsame : readAt options true '(' (respaced [] (segments options true cs)) =
        .sound (.token .punctuator) 0 := by
      show readCode '(' _ = _
      rw [readCode_open, hprinted]
    rw [assemble_kept hseg hg hsame]
    refine ih.kept rfl hf hchain fun _ _ _ => ?_
    rw [hprinted] at hcasts
    exact hcasts
  | some more =>
    -- the first token tells the two apart: a cast is none of the tokens before
    have happears := cast_appears hprinted options pos trivia
    refine iff_of_false (fun h => ?_) ?_
    · change assemble pos trivia (segments options true ('(' :: respaced [] _)) = _ at h
      rw [h] at happears
      cases happears
    · rw [assemble_token rfl hf, hidesCast]
      rw [hprinted] at hcasts
      exact fun h => Bool.false_ne_true ((Bool.or_eq_false_iff.mp h).1.symm.trans hcasts)

/-- One piece with the gap after it. -/
theorem Relexes.step (hseg : segments options inside (c :: cs) = g :: gs)
    (hk : g.reading.piece.isKept = true)
    (hsound : ∀ h ∈ g :: gs, h.reading.fault = none)
    (hchain : Alternate (assemble pos trivia (g :: gs)).tokens)
    (ih : Relexes options (g.reading.piece.insideAfter inside) [] gs) :
    assemble pos trivia (segments options inside (g.chars ++ respaced g.skipped gs)) =
        assemble pos trivia (g :: gs) ↔
      hidesCast (assemble pos trivia (g :: gs)).tokens = false := by
  by_cases hopen : inside = true ∧ c = '(' ∧ castLength? cs = none
  · obtain ⟨rfl, rfl, hnone⟩ := hopen
    have hinside : g.reading.piece.insideAfter true = true := by
      rw [(segments_open hseg hnone).1]
      rfl
    exact (hinside ▸ ih).stepOpen hnone hseg hsound hchain
  · -- no other piece can become a cast, and headers stay hidden among the tokens of a tree
    obtain ⟨hf, hafter⟩ := List.forall_mem_cons.mp hsound
    have hg := upToGap_after hseg hafter
    have hreading : g.reading = readAt options inside c cs := by
      rw [segments] at hseg
      cases hseg
      rfl
    have hsame := readAt_keeps (hreading ▸ hf) (hreading ▸ hg)
      (fun hin hc hangle hnone => by
        subst hin hc
        rw [← hreading]
        exact header_stays_hidden hseg hg hchain hangle hnone)
      fun hin hc hnone => absurd ⟨hin, hc, hnone⟩ hopen
    rw [← hreading] at hsame
    rw [assemble_kept hseg hg hsame]
    refine ih.kept hk hf hchain fun kind hp hparen => absurd ?_ hopen
    rw [segments] at hseg
    cases hseg
    exact readAt_open hp hparen

end Steps

/-- A sound text is read as before with printed gaps unless it hides a cast. -/
theorem relexes_segments (inside : Bool) (source pending : List Char)
    (hp : ∀ d ∈ pending, Text.isWhiteSpace d = true) (hinside : inside = false → pending = [])
    (hsound : ∀ g ∈ segments options inside source, g.reading.fault = none) :
    Relexes options inside pending (segments options inside source) := by
  induction inside, source using segments.induct options generalizing pending with
  | case1 inside =>
    intro pos trivia _
    rw [segments, respaced, ← List.append_nil (normalise pending), assemble_gap hp hinside]
    simp [segments, assemble, hidesCast, Token.isPunctuator]
  | case2 inside c cs reading rest n ih =>
    have hfits := segments_fits options inside (c :: cs)
    have hseg := segments.eq_2 options inside c cs
    rw [hseg] at hfits hsound ⊢
    intro pos trivia hchain
    rw [respaced]
    split
    · next hk =>
      rw [assemble_gap hp hinside]
      exact (ih [] (by simp) (fun _ => rfl) (List.forall_mem_cons.mp hsound).2).step hseg hk hsound
        hchain
    · next hk =>
      have hk : reading.piece.isKept = false := Bool.eq_false_iff.mpr hk
      obtain ⟨hf, hafter⟩ := List.forall_mem_cons.mp hsound
      obtain rfl : inside = true := by
        cases inside with
        | true => rfl
        | false => exact absurd (readHtml_token options c cs).1 (Bool.eq_false_iff.mp hk)
      have hnext : reading.piece.insideAfter true = true := by
        cases hpiece : reading.piece with
        | blank | stray | comment => rfl
        | token => simp [hpiece, Piece.isKept] at hk
      obtain ⟨d, hwhole, hwhite | hfault⟩ := hfits _ List.mem_cons_self |>.dropped hk
      · have hwhite' : ∀ x ∈ pending ++ [d], Text.isWhiteSpace x = true :=
          List.forall_mem_append.mpr ⟨hp, by simpa using hwhite⟩
        rw [assemble_dropped hk hf, ← Position.advance_append, hwhole] at hchain ⊢
        have := ih (pending ++ [d]) hwhite' (by simp [hnext]) hafter pos trivia hchain
        rwa [hnext] at this ⊢
      · rw [hf] at hfault
        cases hfault

end Lexer

namespace Grammar

open Lexer

variable {source : String} {tree : Tree}

theorem toSource_respaced (h : parseSource source = .ok tree) :
    tree.toSource.toList = respaced [] (sourceSegments ⟨false⟩ source) := by
  rw [toSource_eq h, String.toList_ofList, tokenize, tokenizeWith_pieces, gapsOf, weave_normalise]

theorem layOut_tokenize (source : String) :
    Tree.layOut .start (tokenize source).pieces = respaced [] (sourceSegments ⟨false⟩ source) := by
  rw [layOut_eq gapsOf_placed, tokenize, tokenizeWith_pieces, gapsOf, weave_normalise]

theorem head?_toSource (h : parseSource source = .ok tree) :
    tree.toSource.toList.head? = (withoutByteOrderMark source.toList).head? := by
  rw [toSource_respaced h, sourceSegments, ← withoutByteOrderMark_eq, head?_respaced_html]

theorem head?_withoutByteOrderMark {cs : List Char} :
    (withoutByteOrderMark cs).head? = some '\ufeff' ↔ ['\ufeff', '\ufeff'] <+: cs := by
  rw [withoutByteOrderMark_eq, markLength]
  generalize '\ufeff' = mark
  cases cs with
  | nil => simp
  | cons c cs =>
    by_cases h : c = mark
    · cases cs with
      | nil => simp [h]
      | cons d cs => simp [h, eq_comm]
    · simp [h, Ne.symm h]

/-- A printed byte order mark is lost, and what is left is too short for the tokens. -/
theorem tokens_ne_of_mark (h : parseSource source = .ok tree)
    (hmark : (withoutByteOrderMark source.toList).head? = some '\ufeff') :
    (tokenize tree.toSource).tokens ≠ (tokenize source).tokens := by
  intro htokens
  have hlayOut : respaced [] (sourceSegments ⟨false⟩ tree.toSource) = tree.toSource.toList := by
    rw [toSource_respaced h, ← layOut_tokenize, ← layOut_tokenize, Lexed.pieces, Lexed.pieces,
      htokens]
  have hle := length_respaced_le [] (sourceSegments ⟨false⟩ tree.toSource)
  rw [hlayOut, List.nil_append, sourceSegments_whole, withoutByteOrderMark_eq, markLength,
    head?_toSource h, if_pos hmark] at hle
  obtain ⟨rest, hrest⟩ := List.head?_eq_some_iff.mp ((head?_toSource h).trans hmark)
  rw [hrest, List.drop_one, List.tail_cons, List.length_cons] at hle
  omega

/-- Exactly when printed source is lexed to the tokens of its tree: no second byte order mark
takes the place of the first, and no parenthesis, type and parenthesis come to be spelled like a
cast. -/
theorem toSource_relexes_iff (h : parseSource source = .ok tree) :
    ((tokenize tree.toSource).errors = [] ∧
        (tokenize tree.toSource).tokens = (tokenize source).tokens) ↔
      ¬ ['\ufeff', '\ufeff'] <+: source.toList ∧ hidesCast (tokenize source).tokens = false := by
  obtain ⟨herrors, hparse⟩ := parseSource_ok h
  rw [← head?_withoutByteOrderMark]
  by_cases hmark : (withoutByteOrderMark source.toList).head? = some '\ufeff'
  · exact iff_of_false (fun hsame => tokens_ne_of_mark h hmark hsame.2) fun hnone => hnone.1 hmark
  · have hlexed : tokenize source = assemble .start [] (sourceSegments ⟨false⟩ source) :=
      tokenizeWith_eq ..
    have hprinted : tokenize tree.toSource = assemble .start []
        (segments ⟨false⟩ false (respaced [] (sourceSegments ⟨false⟩ source))) := by
      rw [tokenize, tokenizeWith_eq, sourceSegments, markLength, head?_toSource h, if_neg hmark,
        List.drop_zero, toSource_respaced h]
    have hchain : Alternate (assemble .start [] (sourceSegments ⟨false⟩ source)).tokens := by
      rw [← hlexed, ← parseSource_tokens h]
      exact tokens_isChain hparse
    have hrelexes : tokenize tree.toSource = tokenize source ↔
        hidesCast (tokenize source).tokens = false := by
      rw [hprinted, hlexed]
      exact relexes_segments false _ [] (by simp) (fun _ => rfl) (sourceSegments_sound herrors)
        .start [] hchain
    rw [← hrelexes]
    refine ⟨fun hsame => ⟨hmark, ?_⟩, fun hsame => ?_⟩
    · exact congrArg₂ Lexed.mk hsame.2 (hsame.1.trans herrors.symm)
    · rw [hsame.2]
      exact ⟨herrors, rfl⟩

/-- A byte order mark, tabs before a type and in a cast, and a carriage return. -/
theorem toSource_relexes_iff_tabs :
    let source := "\ufeff<?php\tf(\tint, (\tint\t)\t$x <<\r2);"
    ∃ tree, parseSource source = .ok tree ∧
      tree.toSource = "<?php f( int, (\tint\t) $x << 2);" ∧
      (tokenize tree.toSource).errors = [] ∧
      (tokenize tree.toSource).tokens = (tokenize source).tokens := by
  intro source
  obtain ⟨tree, htree, hprinted⟩ : ∃ tree, parseSource source = .ok tree ∧
      tree.toSource = "<?php f( int, (\tint\t) $x << 2);" := exists_printed (by decide +kernel)
  have hplain : ¬ ['\ufeff', '\ufeff'] <+: source.toList ∧
      hidesCast (tokenize source).tokens = false := ⟨by decide +kernel, by decide +kernel⟩
  exact ⟨tree, htree, hprinted, (toSource_relexes_iff htree).mpr hplain⟩

/-- A carriage return after a parenthesis hides a cast, and the space that is printed for it does
not. -/
theorem toSource_makes_cast :
    let source := "<?php (\rint);"
    ∃ tree, parseSource source = .ok tree ∧ tree.toSource = "<?php ( int);" ∧
      (tokenize source).tokens.map Token.text = ["<?php", "(", "int", ")", ";", ""] ∧
      (tokenize tree.toSource).tokens.map Token.text = ["<?php", "( int)", ";", ""] ∧
      (tokenize tree.toSource).tokens ≠ (tokenize source).tokens := by
  intro source
  obtain ⟨tree, htree, hprinted⟩ : ∃ tree, parseSource source = .ok tree ∧
      tree.toSource = "<?php ( int);" := exists_printed (by decide +kernel)
  refine ⟨tree, htree, hprinted, by decide +kernel, ?_⟩
  rw [hprinted]
  exact ⟨by decide +kernel, by decide +kernel⟩

end Grammar

end PhpSyntax
