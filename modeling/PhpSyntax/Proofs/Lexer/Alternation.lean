import PhpSyntax.Proofs.Lexer.Offsets
import PhpSyntax.Proofs.Lexer.SelfDelimiting

/-!
Text and code alternate: a text outside of code runs up to the next tag or the end, and nothing
between two tokens outside of code is lost but the line end after a closing tag.
-/

namespace PhpSyntax.Lexer

inductive Region where
  /-- Outside of code. -/
  | outside
  /-- Outside of code, just after a text. -/
  | afterText
  | inside
deriving DecidableEq

namespace Region

def next? : Region → TokenKind → Option Region
  | outside, .inlineHtml => some afterText
  | outside, .openTag | outside, .openTagWithEcho => some inside
  | afterText, .openTag | afterText, .openTagWithEcho => some inside
  | inside, .closeTag => some outside
  | inside, .inlineHtml | inside, .openTag | inside, .openTagWithEcho | inside, .eof => none
  | inside, _ => some inside
  | _, _ => none

def after? (region : Region) (kinds : List TokenKind) : Option Region :=
  kinds.foldlM next? region

/-- Tokens of these kinds can stand in the region and those after it, up to the end of the file. -/
def Accepts (region : Region) (kinds : List TokenKind) : Prop :=
  ∃ init, kinds = init ++ [.eof] ∧ (region.after? init).isSome

theorem Accepts.cons {region region' : Region} {kind : TokenKind} {kinds : List TokenKind}
    (hnext : region.next? kind = some region') (h : region'.Accepts kinds) :
    region.Accepts (kind :: kinds) := by
  obtain ⟨init, rfl, hinit⟩ := h
  refine ⟨kind :: init, rfl, ?_⟩
  rwa [after?, List.foldlM_cons, hnext]

/-- All tokens of code are accepted where code stands, and only a closing tag ends it. -/
theorem next?_isCode {kind : TokenKind} (h : kind.isCode = true) :
    inside.next? kind = some (if insideAfter true kind then inside else outside) := by
  cases kind <;> first | rfl | cases h

/-- Only a closing tag and a text are followed by a place outside of code. -/
theorem kind_of_next? {region region' : Region} {kind : TokenKind}
    (h : region.next? kind = some region') (hne : region' ≠ inside) :
    kind = .closeTag ∨ kind = .inlineHtml := by
  cases region <;> cases kind <;> simp_all [next?]

end Region

/-- The tags that open code: the long one at a white space or the end, the one that echoes, and the
short one, where it is allowed and starts neither of the long words. -/
inductive OpensCode (options : LexerOptions) : List Char → Prop
  | long {word rest : List Char} (h : word.map Char.toLower = "<?php".toList)
    (hrest : ∀ c ∈ rest.head?, Text.isWhiteSpace c) : OpensCode options (word ++ rest)
  | echo (rest : List Char) : OpensCode options ("<?=".toList ++ rest)
  | short {rest : List Char} (h : options.shortOpenTag = true)
    (hphp : (rest.take 3).map Char.toLower ≠ "php".toList)
    (hxml : (rest.take 3).map Char.toLower ≠ "xml".toList) : OpensCode options ("<?".toList ++ rest)

theorem startsWithIgnoringCase_iff {word : String} {cs : List Char} :
    startsWithIgnoringCase word cs = true ↔
      (cs.take word.toList.length).map Char.toLower = word.toList.map Char.toLower := by
  rw [startsWithIgnoringCase, decide_eq_true_eq]

theorem opensCode_of_openTagAt? {options : LexerOptions} {cs : List Char}
    (h : (openTagAt? options cs).isSome = true) : OpensCode options cs := by
  unfold openTagAt? at h
  by_cases hphp : startsWithIgnoringCase "<?php" cs
  · rw [if_pos hphp] at h
    have hrest : (cs.drop 5).head?.all Text.isWhiteSpace = true := by
      by_contra hn
      rw [if_neg hn] at h
      cases h
    rw [← List.take_append_drop 5 cs]
    exact .long (startsWithIgnoringCase_iff.mp hphp) ((Option.all_eq_true _ _).mp hrest)
  rw [if_neg hphp] at h
  by_cases hecho : "<?=".toList.isPrefixOf cs
  · obtain ⟨rest, rfl⟩ := List.isPrefixOf_iff_prefix.mp hecho
    exact .echo rest
  rw [if_neg hecho] at h
  by_cases hshort : (options.shortOpenTag && "<?".toList.isPrefixOf cs &&
      !startsWithIgnoringCase "<?xml" cs) = true
  · simp only [Bool.and_eq_true, Bool.not_eq_true'] at hshort
    obtain ⟨⟨hoption, hprefix⟩, hxml⟩ := hshort
    obtain ⟨rest, rfl⟩ := List.isPrefixOf_iff_prefix.mp hprefix
    have hnot : ∀ word : List Char, (rest.take 3).map Char.toLower = word →
        (("<?".toList ++ rest).take 5).map Char.toLower = "<?".toList ++ word :=
      fun word heq => congrArg ("<?".toList ++ ·) heq
    exact .short hoption (fun heq => hphp (startsWithIgnoringCase_iff.mpr (hnot _ heq)))
      fun heq => Bool.eq_false_iff.mp hxml (startsWithIgnoringCase_iff.mpr (hnot _ heq))
  · rw [if_neg hshort] at h
    cases h

theorem OpensCode.openTagAt? {options : LexerOptions} {cs : List Char}
    (h : OpensCode options cs) : (openTagAt? options cs).isSome = true := by
  unfold Lexer.openTagAt?
  cases h with
  | @long word rest h hrest =>
    have hlen : word.length = 5 := by simpa using congrArg List.length h
    have hphp : startsWithIgnoringCase "<?php" (word ++ rest) = true := by
      rw [startsWithIgnoringCase_iff, show "<?php".toList.length = 5 from rfl, ← hlen,
        List.take_left, h]
      rfl
    have hall : ((word ++ rest).drop 5).head?.all Text.isWhiteSpace = true := by
      rw [← hlen, List.drop_left, Option.all_eq_true]
      exact hrest
    rw [if_pos hphp, if_pos hall]
    rfl
  | echo rest => rfl
  | @short rest h hphp hxml =>
    have hnot : ∀ word : List Char, (rest.take 3).map Char.toLower ≠ word →
        (("<?".toList ++ rest).take 5).map Char.toLower ≠ "<?".toList ++ word :=
      fun word hne heq => hne ((List.append_right_inj "<?".toList).mp heq)
    have hphp : ¬startsWithIgnoringCase "<?php" ("<?".toList ++ rest) = true :=
      mt startsWithIgnoringCase_iff.mp (hnot _ hphp)
    have hxml : startsWithIgnoringCase "<?xml" ("<?".toList ++ rest) = false :=
      Bool.eq_false_iff.mpr (mt startsWithIgnoringCase_iff.mp (hnot _ hxml))
    rw [if_neg hphp]
    by_cases hecho : "<?=".toList.isPrefixOf ("<?".toList ++ rest) = true
    · rw [if_pos hecho]
      rfl
    · rw [if_neg hecho, if_pos]
      · rfl
      · rw [h, hxml]
        rfl

/-- A tag is recognised just where one starts. -/
theorem openTagAt?_isSome_iff {options : LexerOptions} {cs : List Char} :
    (openTagAt? options cs).isSome = true ↔ OpensCode options cs :=
  ⟨opensCode_of_openTagAt?, OpensCode.openTagAt?⟩

section Texts

variable {options : LexerOptions} {cs : List Char}

/-- Only where a tag starts or the text ends is a text outside of code left. -/
theorem htmlLength_stops : cs.drop (htmlLength options cs) = [] ∨
    (openTagAt? options (cs.drop (htmlLength options cs))).isSome := by
  induction cs with
  | nil => exact .inl rfl
  | cons c cs ih =>
    rw [htmlLength]
    by_cases h : (openTagAt? options (c :: cs)).isSome
    · rw [if_pos h]
      exact .inr h
    · rw [if_neg h]
      exact ih

theorem htmlLength_untagged {i : Nat} (h : i < htmlLength options cs) :
    ¬OpensCode options (cs.drop i) := by
  induction cs generalizing i with
  | nil => exact absurd h (Nat.not_lt_zero i)
  | cons c cs ih =>
    rw [htmlLength] at h
    by_cases htag : (openTagAt? options (c :: cs)).isSome
    · rw [if_pos htag] at h
      exact absurd h (Nat.not_lt_zero i)
    · rw [if_neg htag] at h
      cases i with
      | zero => rwa [openTagAt?_isSome_iff] at htag
      | succ i => exact ih (Nat.lt_of_succ_lt_succ h)

theorem htmlLength_le : htmlLength options cs ≤ cs.length := by
  induction cs with
  | nil => exact Nat.le_refl 0
  | cons c cs ih =>
    rw [htmlLength, List.length_cons]
    split <;> omega

/-- A text outside of code is read to the next tag. -/
theorem readHtml_text {c : Char} (h : (readHtml options c cs).piece = .token .inlineHtml) :
    ¬OpensCode options (c :: cs) ∧
      readHtml options c cs = .sound (.token .inlineHtml) (htmlLength options cs) := by
  unfold readHtml at h ⊢
  cases htag : openTagAt? options (c :: cs) with
  | some tag =>
    obtain ⟨kind, n⟩ := tag
    rw [htag] at h
    cases h
    obtain h | h := openTagAt_kind htag <;> cases h
  | none =>
    refine ⟨?_, rfl⟩
    rw [← openTagAt?_isSome_iff, htag]
    exact Bool.false_ne_true

end Texts

theorem readCode_isCode {c : Char} {cs : List Char} {kind : TokenKind}
    (h : (readCode c cs).piece = .token kind) : kind.isCode = true := by
  have hreading := readCode_cases c cs
  generalize readCode c cs = r at h hreading
  cases hreading with
  | blank | lineComment | blockComment => cases h
  | closeTag | variableName | name | cast => cases h; rfl
  | number =>
    cases h
    obtain h | h := numberLength_kind c cs <;> rw [h] <;> rfl
  | singleQuoted | doubleQuoted | shellCommand | heredoc =>
    cases h
    split <;> rfl
  | punctuator =>
    unfold readPunctuator at h
    split at h <;> cases h
    rfl

/-- A reader in the region, with the text before it: what follows a text is a tag or the end. -/
def Region.Reads (options : LexerOptions) (inside : Bool) (source : List Char) : Region → Prop
  | outside => inside = false
  | afterText => inside = false ∧ (source = [] ∨ (openTagAt? options source).isSome)
  | .inside => inside = true

theorem Region.reads_ofInside (options : LexerOptions) (inside : Bool) (source : List Char) :
    (if inside then Region.inside else .outside).Reads options inside source := by
  cases inside <;> rfl

/-- One reading is accepted by its region and leads to the next one. -/
theorem Region.Reads.step {options : LexerOptions} {inside : Bool} {c : Char} {cs : List Char}
    {region : Region} (h : region.Reads options inside (c :: cs)) :
    let reading := readAt options inside c cs
    let rest := cs.drop reading.more
    let next := rest.drop (reading.piece.vanishing rest)
    match reading.piece with
    | .token kind => ∃ region', region.next? kind = some region' ∧
        region'.Reads options (Lexer.insideAfter inside kind) next
    | _ => region.Reads options inside next := by
  intro reading rest next
  cases inside with
  | true =>
    obtain rfl : region = .inside := by cases region <;> simp_all [Reads]
    cases hp : reading.piece with
    | token kind => exact ⟨_, next?_isCode (readCode_isCode hp), reads_ofInside _ _ _⟩
    | _ => rfl
  | false =>
    cases htag : openTagAt? options (c :: cs) with
    | some tag =>
      obtain ⟨kind, n⟩ := tag
      have hpiece : reading.piece = .token kind := by
        change (readHtml options c cs).piece = _
        rw [readHtml, htag]
        rfl
      rw [hpiece]
      refine ⟨.inside, ?_, ?_⟩
      · obtain rfl | rfl := openTagAt_kind htag <;> cases region <;> first | rfl | cases h
      · obtain rfl | rfl := openTagAt_kind htag <;> rfl
    | none =>
      have hreading : reading = .sound (.token .inlineHtml) (htmlLength options cs) := by
        change readHtml options c cs = _
        rw [readHtml, htag]
      obtain rfl : region = .outside := by
        cases region with
        | outside => rfl
        | afterText =>
          obtain ⟨-, hend | hopen⟩ := h
          · cases hend
          · rw [htag] at hopen
            cases hopen
        | inside => cases h
      simp only [next, rest, hreading]
      exact ⟨.afterText, rfl, rfl, htmlLength_stops⟩

theorem assemble_accepted {options : LexerOptions} {inside : Bool} {source : List Char}
    {gs : List Segment} (hgs : segments options inside source = gs) {region : Region}
    (h : region.Reads options inside source) (pos : Position) (trivia : List Comment) :
    region.Accepts ((assemble pos trivia gs).tokens.map Token.kind) := by
  induction gs generalizing inside source region pos trivia with
  | nil => exact ⟨[], rfl, rfl⟩
  | cons g gs ih =>
    cases source with
    | nil => simp [segments] at hgs
    | cons c cs =>
      have hstep := h.step
      rw [segments] at hgs
      obtain ⟨rfl, htail⟩ := List.cons.inj hgs
      rw [assemble]
      cases hp : (readAt options inside c cs).piece with
      | token kind =>
        simp only [hp] at hstep htail ⊢
        obtain ⟨region', hnext, hreads⟩ := hstep
        exact (ih htail hreads _ _).cons hnext
      | _ =>
        simp only [hp] at hstep htail ⊢
        exact ih htail hstep _ _

def lineEndLength : List Char → Nat
  | '\r' :: '\n' :: _ => 2
  | '\n' :: _ => 1
  | _ => 0

theorem lineEndLength_le (cs : List Char) : lineEndLength cs ≤ cs.length := by
  unfold lineEndLength
  split <;> simp

theorem skippedAfter_closeTag (cs : List Char) :
    skippedAfter .closeTag cs = lineEndLength cs := by
  unfold lineEndLength
  split
  · rfl
  · rfl
  · next hreturn hfeed =>
    have hprefix : ¬"\r\n".toList.isPrefixOf cs = true := by
      rw [List.isPrefixOf_iff_prefix]
      rintro ⟨rest, rfl⟩
      exact hreturn rest rfl
    have hhead : cs.head? ≠ some '\n' := by
      intro hhead
      obtain ⟨rest, rfl⟩ := List.head?_eq_some_iff.mp hhead
      exact hfeed rest rfl
    rw [skippedAfter, if_neg hprefix, if_neg hhead]

def gapAfter (kind : TokenKind) (rest : List Char) : Nat :=
  if kind = .closeTag then lineEndLength rest else 0

structure Lexed.Alternates (options : LexerOptions) (cs : List Char) (lexed : Lexed) : Prop where
  accepted : Region.outside.Accepts (lexed.tokens.map Token.kind)
  first : ∀ t ∈ lexed.tokens.head?, t.StandsAt cs (markLength cs)
  last : ∀ t ∈ lexed.tokens.getLast?, t.StandsAt cs cs.length
  adjacent : ∀ before t u after region, lexed.tokens = before ++ t :: u :: after →
    Region.outside.after? ((before ++ [t]).map Token.kind) = some region → region ≠ .inside →
    ∃ o, t.StandsAt cs o ∧
      u.StandsAt cs (o + t.length + gapAfter t.kind (cs.drop (o + t.length)))
  tagged : ∀ t ∈ lexed.tokens, t.kind = .openTag ∨ t.kind = .openTagWithEcho →
    ∃ o, t.StandsAt cs o ∧ OpensCode options (cs.drop o)
  untagged : ∀ t ∈ lexed.tokens, t.kind = .inlineHtml → ∃ o, t.StandsAt cs o ∧
    ∀ i, o ≤ i → i < o + t.length → ¬OpensCode options (cs.drop i)

/-- Outside of code the next token starts at once. -/
theorem assemble_outside (options : LexerOptions) (pos : Position) (rest : List Char) :
    ∃ t ts after, (assemble pos [] (segments options false rest)).tokens = t :: ts ∧
      t.start = pos ∧ rest = t.text.toList ++ after := by
  cases rest with
  | nil =>
    rw [segments]
    exact ⟨_, _, [], rfl, rfl, rfl⟩
  | cons c cs =>
    obtain ⟨kind, hpiece⟩ : ∃ kind, (readAt options false c cs).piece = .token kind := by
      change ∃ kind, (readHtml options c cs).piece = .token kind
      unfold readHtml
      split <;> exact ⟨_, rfl⟩
    rw [segments, assemble]
    simp only [hpiece]
    refine ⟨_, _, cs.drop (readAt options false c cs).more, rfl, rfl, ?_⟩
    rw [String.toList_ofList, List.cons_append, List.take_append_drop]

/-- The next token outside of code stands where the text before it ends. -/
theorem outside_standsAt {options : LexerOptions} {cs front rest : List Char} {t : Token}
    {after : List Token} (hcs : cs.drop (markLength cs) = front ++ rest)
    (h : (assemble (.after front) [] (segments options false rest)).tokens = t :: after) :
    t.StandsAt cs (markLength cs + front.length) := by
  obtain ⟨t', ts, last, htokens, hstart, hrest⟩ := assemble_outside options (.after front) rest
  obtain ⟨rfl, -⟩ := List.cons.inj (htokens.symm.trans h)
  rw [hrest] at hcs
  exact .of_append hcs hstart

theorem length_skipped (kind : TokenKind) (rest : List Char) :
    (rest.take (skippedAfter kind rest)).length = gapAfter kind rest := by
  unfold gapAfter
  by_cases h : kind = .closeTag
  · rw [if_pos h, h, skippedAfter_closeTag, List.length_take_of_le (lineEndLength_le rest)]
  · have hnone : skippedAfter kind rest = 0 := by
      cases kind <;> first | rfl | exact absurd rfl h
    rw [if_neg h, hnone, List.take_zero, List.length_nil]

/-- Texts and the tags that open code are read outside of code. -/
theorem inside_of_piece {options : LexerOptions} {inside : Bool} {c : Char} {cs : List Char}
    {kind : TokenKind} (h : (readAt options inside c cs).piece = .token kind)
    (hkind : kind.isCode = false) : inside = false := by
  cases inside with
  | false => rfl
  | true => exact absurd (readCode_isCode h) (Bool.eq_false_iff.mp hkind)

theorem tokenizeWith_adjacent {options : LexerOptions} {source : String}
    {before after : List Token} {t u : Token}
    (h : (tokenizeWith options source).tokens = before ++ t :: u :: after)
    (hkind : t.kind = .closeTag ∨ t.kind = .inlineHtml) :
    ∃ o, t.StandsAt source.toList o ∧ u.StandsAt source.toList
      (o + t.length + gapAfter t.kind (source.toList.drop (o + t.length))) := by
  have heof : t.kind ≠ .eof := by
    rintro heof
    rw [heof] at hkind
    obtain hkind | hkind := hkind <;> cases hkind
  obtain ⟨inside, front, c, cs, hsource, hstart, hpiece, htext, hafter⟩ := tokenizeWith_split h heof
  have houtside : insideAfter inside t.kind = false := by
    obtain hclose | htext := hkind
    · rw [hclose]
      rfl
    · rw [htext] at hpiece ⊢
      exact inside_of_piece hpiece rfl
  rw [houtside] at hafter
  generalize (readAt options inside c cs).more = more at htext hafter
  generalize hrest : cs.drop more = rest at hafter
  have hsource : source.toList.drop (markLength source.toList) =
      front ++ (t.text.toList ++ rest) := by
    rw [hsource, htext, ← hrest, List.cons_append, List.take_append_drop]
  refine ⟨_, .of_append hsource hstart, ?_⟩
  rw [← List.append_assoc] at hsource
  have hstop : markLength source.toList + front.length + t.length =
      markLength source.toList + (front ++ t.text.toList).length := by
    rw [List.length_append, Nat.add_assoc, Token.length]
  rw [hstop, drop_markLength_add hsource, ← length_skipped, Nat.add_assoc, ← List.length_append]
  rw [Token.stop, hstart, ← Position.after_append, ← Position.after_append] at hafter
  refine outside_standsAt ?_ hafter
  rw [hsource, List.append_assoc _ (rest.take _), List.take_append_drop]

/-- What is read at the place of a token. -/
theorem tokenizeWith_readAt {options : LexerOptions} {source : String} {t : Token}
    (ht : t ∈ (tokenizeWith options source).tokens) (hkind : t.kind ≠ .eof) :
    ∃ inside o c cs, t.StandsAt source.toList o ∧ source.toList.drop o = c :: cs ∧
      (readAt options inside c cs).piece = .token t.kind ∧
      t.length = (cs.take (readAt options inside c cs).more).length + 1 := by
  obtain ⟨before, after, htokens⟩ := List.append_of_mem ht
  obtain ⟨inside, front, c, cs, hsource, hstart, hpiece, htext, -⟩ := tokenizeWith_split htokens hkind
  have hwhole : source.toList.drop (markLength source.toList) =
      front ++ (t.text.toList ++ cs.drop (readAt options inside c cs).more) := by
    rw [hsource, htext, List.cons_append, List.take_append_drop]
  refine ⟨inside, _, c, cs, .of_append hwhole hstart, drop_markLength_add hsource, hpiece, ?_⟩
  rw [Token.length, htext, List.length_cons]

theorem tokenizeWith_untagged {options : LexerOptions} {source : String} {t : Token}
    (ht : t ∈ (tokenizeWith options source).tokens) (hkind : t.kind = .inlineHtml) :
    ∃ o, t.StandsAt source.toList o ∧
      ∀ i, o ≤ i → i < o + t.length → ¬OpensCode options (source.toList.drop i) := by
  obtain ⟨inside, o, c, cs, hstands, hdrop, hpiece, hlength⟩ :=
    tokenizeWith_readAt ht (by simp [hkind])
  rw [hkind] at hpiece
  obtain rfl := inside_of_piece hpiece rfl
  obtain ⟨hhere, hreading⟩ := readHtml_text hpiece
  have hmore : (readAt options false c cs).more = htmlLength options cs := by
    change (readHtml options c cs).more = _
    rw [hreading]
    rfl
  rw [hmore, List.length_take_of_le htmlLength_le] at hlength
  refine ⟨o, hstands, fun i hle hlt => ?_⟩
  obtain ⟨k, rfl⟩ := Nat.exists_eq_add_of_le hle
  rw [← List.drop_drop, hdrop]
  cases k with
  | zero => exact hhere
  | succ k =>
    rw [List.drop_succ_cons]
    exact htmlLength_untagged (by omega)

theorem tokenizeWith_tagged {options : LexerOptions} {source : String} {t : Token}
    (ht : t ∈ (tokenizeWith options source).tokens)
    (hkind : t.kind = .openTag ∨ t.kind = .openTagWithEcho) :
    ∃ o, t.StandsAt source.toList o ∧ OpensCode options (source.toList.drop o) := by
  have hnot : t.kind ≠ .eof ∧ t.kind ≠ .inlineHtml ∧ t.kind.isCode = false := by
    obtain hkind | hkind := hkind <;> rw [hkind] <;> decide
  obtain ⟨inside, o, c, cs, hstands, hdrop, hpiece, -⟩ := tokenizeWith_readAt ht hnot.1
  obtain rfl := inside_of_piece hpiece hnot.2.2
  refine ⟨o, hstands, ?_⟩
  rw [hdrop, ← openTagAt?_isSome_iff]
  change (readHtml options c cs).piece = _ at hpiece
  unfold readHtml at hpiece
  split at hpiece
  · next htag => rw [htag, Option.isSome_some]
  · exact absurd (Piece.token.inj hpiece).symm hnot.2.1

/-- The last token stands at the end, so that no text is left behind it. -/
theorem tokenizeWith_last {options : LexerOptions} {source : String} {t : Token}
    (ht : t ∈ (tokenizeWith options source).tokens.getLast?) :
    t.StandsAt source.toList source.toList.length := by
  obtain ⟨before, htokens⟩ := List.getLast?_eq_some_iff.mp ht
  rw [tokenizeWith_eq] at htokens
  obtain ⟨front, back, hgs, hstart, hback⟩ := assemble_split htokens
  have hwhole : (sourceSegments options source).flatMap Segment.whole =
      source.toList.drop (markLength source.toList) := segments_whole ..
  rw [Position.advance_start] at hstart
  obtain ⟨rfl, -, htext⟩ | ⟨g, later, rfl, -, -, hafter⟩ := hback
  · rw [hgs, List.append_nil] at hwhole
    have hsource : source.toList.drop (markLength source.toList) =
        front.flatMap Segment.whole ++ (t.text.toList ++ []) := by
      rw [← hwhole, htext, String.toList_empty, List.append_nil, List.append_nil]
    have hend : markLength source.toList + (front.flatMap Segment.whole).length =
        source.toList.length := by
      have := markLength_le source.toList
      rw [hwhole, List.length_drop]
      omega
    exact hend ▸ .of_append hsource hstart
  · have hfits : ∀ h ∈ sourceSegments options source, h.Fits := segments_fits options false _
    rw [hgs] at hfits
    obtain ⟨init, stop, hends, -⟩ := assemble_ends (t.start.advance g.whole) [] fun h hh =>
      hfits h (List.mem_append_right _ (.tail _ hh))
    exact absurd (hends.symm.trans hafter) (by simp)

/-- Text outside of code and code alternate, from the start of the source to its end. Outside of
code one token stands directly after the other, but for the line end after a closing tag, and a text
holds no tag that opens code. -/
theorem tokenizeWith_alternates (options : LexerOptions) (source : String) :
    (tokenizeWith options source).Alternates options source.toList where
  accepted := by
    rw [tokenizeWith_eq]
    have hstart : Region.outside.Reads options false
        (source.toList.drop (markLength source.toList)) := rfl
    exact assemble_accepted rfl hstart _ _
  first t ht := by
    obtain ⟨after, htokens⟩ := List.head?_eq_some_iff.mp ht
    rw [tokenizeWith_eq] at htokens
    have hsource : source.toList.drop (markLength source.toList) =
        [] ++ source.toList.drop (markLength source.toList) := rfl
    exact outside_standsAt hsource htokens
  adjacent before t u after region htokens hafter hne := by
    rw [Region.after?, List.map_append, List.foldlM_append] at hafter
    obtain ⟨region', -, hnext⟩ := Option.bind_eq_some_iff.mp hafter
    have hnext : region'.next? t.kind = some region := by simpa using hnext
    exact tokenizeWith_adjacent htokens (Region.kind_of_next? hnext hne)
  last _ := tokenizeWith_last
  tagged _ := tokenizeWith_tagged
  untagged _ := tokenizeWith_untagged

example : (tokenize "a<?PHP //b?>\r\n<?phpx<?=c").tokens.map Token.kind =
    [.inlineHtml, .openTag, .closeTag, .inlineHtml, .openTagWithEcho, .identifier, .eof] := by
  decide +kernel

end PhpSyntax.Lexer
