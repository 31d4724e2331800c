import PhpSyntax.Proofs.Lexer.Alone
import PhpSyntax.Proofs.Lexer.Errors
import PhpSyntax.Proofs.Lexer.Offsets

/-!
Tokens of code delimit themselves: the text of a token, alone behind a tag, is that token again.
-/

namespace PhpSyntax

def TokenKind.isCode : TokenKind → Bool
  | inlineHtml | openTag | openTagWithEcho | eof => false
  | _ => true

namespace Lexer

structure Lexed.Delimits (lexed : Lexed) (t : Token) : Prop where
  mem : t ∈ lexed.tokens
  isCode : t.kind.isCode = true
  ended : ∀ e ∈ lexed.errors, e.position = t.start → e.fault.isUnterminated = false

/-- Of tokens only the end can be missing. -/
theorem Reading.Ends.fault_eq_none {c : Char} {cs : List Char} {r : Reading} (h : r.Ends c cs)
    {kind : TokenKind} (hpiece : r.piece = .token kind)
    (hsound : ∀ fault, r.fault = some fault → fault.isUnterminated = false) : r.fault = none := by
  cases hf : r.fault with
  | none => rfl
  | some fault =>
    have hhas := h.hasFault fault hf
    have hu := hsound fault hf
    cases fault with
    | unexpectedCharacter c => rw [hpiece] at hhas; cases hhas.1
    | _ => cases hu

theorem readHtml_isCode {options : LexerOptions} {c : Char} {cs : List Char} {kind : TokenKind}
    (h : (readHtml options c cs).piece = .token kind) : kind.isCode = false := by
  unfold readHtml at h
  split at h
  · next kind n htag =>
    cases h
    obtain rfl | rfl := openTagAt_kind htag
    · rfl
    · rfl
  · cases h
    rfl

theorem readCode_take {c : Char} {cs : List Char} (h : (readCode c cs).fault = none) :
    readCode c (cs.take (readCode c cs).more) = readCode c cs := by
  have hkeeps := readCode_alone c (cs.take (readCode c cs).more) (cs.drop (readCode c cs).more)
  rw [List.take_append_drop] at hkeeps
  by_cases hle : (readCode c cs).more ≤ cs.length
  · exact hkeeps (List.length_take_of_le hle).symm h
  · rw [List.take_of_length_le (Nat.le_of_not_le hle)]

/-- What is read at a token of code, and what is reported there. -/
theorem tokenizeWith_reads {options : LexerOptions} {source : String} {t : Token}
    (ht : t ∈ (tokenizeWith options source).tokens) (hcode : t.kind.isCode = true) :
    ∃ front c cs, source.toList.drop (markLength source.toList) = front ++ c :: cs ∧
      t.start = .after front ∧ (readCode c cs).piece = .token t.kind ∧
      t.text.toList = c :: cs.take (readCode c cs).more ∧
      ∀ fault, ⟨fault, t.start⟩ ∈ (tokenizeWith options source).errors ↔
        (readCode c cs).fault = some fault := by
  have hkind : t.kind ≠ .eof := by
    intro heof
    rw [heof] at hcode
    cases hcode
  rw [tokenizeWith_eq] at ht ⊢
  rw [assemble_errors]
  have hfits : ∀ g ∈ sourceSegments options source, g.Fits := segments_fits options false _
  obtain ⟨before, after, htokens⟩ := List.append_of_mem ht
  obtain ⟨front, back, hgs, hstart, hback⟩ := assemble_split htokens
  obtain ⟨-, heof, -⟩ | ⟨g, back, rfl, hpiece, htext, -⟩ := hback
  · exact absurd heof hkind
  have hfaults : ∀ fault, ⟨fault, t.start⟩ ∈ errorsFrom .start (sourceSegments options source) ↔
      g.reading.fault = some fault := by
    refine fun fault => mem_errorsFrom.trans ⟨?_, fun hf => ⟨front, g, back, hgs, hf, hstart⟩⟩
    rintro ⟨front', g', back', hgs', hf, hstart'⟩
    rw [hgs] at hfits hgs'
    rwa [eq_of_position hfits hgs' (hstart.symm.trans hstart')]
  obtain ⟨inside, c, cs, hsource, hhere⟩ := segments_split hgs
  rw [segments] at hhere
  obtain ⟨rfl, -⟩ := List.cons.inj hhere
  have htext : t.text.toList = c :: cs.take (readAt options inside c cs).more := by
    rw [htext, String.toList_ofList]
  cases inside with
  | false =>
    have := readHtml_isCode hpiece
    rw [hcode] at this
    cases this
  | true =>
    exact ⟨_, c, cs, hsource, hstart.trans (Position.advance_start _), hpiece, htext, hfaults⟩

/-- The characters of a delimited token are read alone as the whole token. -/
theorem Lexed.Delimits.reads {options : LexerOptions} {source : String} {t : Token}
    (h : (tokenizeWith options source).Delimits t) :
    ∃ c body more, t.text.toList = c :: body ∧ body.length ≤ more ∧
      readCode c body = .sound (.token t.kind) more := by
  obtain ⟨hmem, hcode, hended⟩ := h
  obtain ⟨-, c, cs, -, -, hpiece, htext, hfaults⟩ := tokenizeWith_reads hmem hcode
  have hfault : (readCode c cs).fault = none := (readCode_ends c cs).fault_eq_none hpiece
    fun fault hf => hended ⟨fault, t.start⟩ ((hfaults fault).mpr hf) rfl
  refine ⟨c, cs.take (readCode c cs).more, (readCode c cs).more, htext, ?_, ?_⟩
  · exact List.length_take_le _ _
  · rw [readCode_take hfault, Reading.sound, ← hpiece, ← hfault]

/-- The text of a piece behind a tag. -/
theorem tokenize_alone {c : Char} {body : List Char} {kind : TokenKind} {more : Nat}
    (hlength : body.length ≤ more) (h : readCode c body = .sound (.token kind) more) :
    tokenize ("<?php " ++ String.ofList (c :: body)) =
      ⟨[⟨.openTag, "<?php", .start, []⟩, ⟨kind, String.ofList (c :: body), ⟨1, 6⟩, []⟩,
        ⟨.eof, "", (Position.mk 1 6).advance (c :: body), []⟩], []⟩ := by
  have hsource : ("<?php " ++ String.ofList (c :: body)).toList =
      "<?php ".toList ++ (c :: body) := by simp
  have htag : readAt ⟨false⟩ false '<' ("?php ".toList ++ c :: body) =
      .sound (.token .openTag) 4 := rfl
  have hblank : readAt ⟨false⟩ true ' ' (c :: body) = .sound .blank 0 := rfl
  have hpiece : readAt ⟨false⟩ true c body = .sound (.token kind) more := h
  have hsegments : segments ⟨false⟩ false ("<?php ".toList ++ c :: body) =
      [⟨.sound (.token .openTag) 4, "<?php".toList, []⟩, ⟨.sound .blank 0, [' '], []⟩,
        ⟨.sound (.token kind) more, c :: body, []⟩] := by
    change segments _ _ ('<' :: ("?php ".toList ++ c :: body)) = _
    rw [segments, htag]
    change _ :: segments _ true (' ' :: c :: body) = _
    rw [segments, hblank]
    change _ :: _ :: segments _ true (c :: body) = _
    rw [segments, hpiece]
    have htake : body.take more = body := List.take_of_length_le hlength
    have hdrop : body.drop more = [] := List.drop_of_length_le hlength
    simp only [Reading.sound, htake, hdrop, List.take_nil, List.drop_nil, segments]
    rfl
  rw [tokenize, tokenizeWith_eq, sourceSegments, hsource]
  change assemble _ _ (segments ⟨false⟩ false ("<?php ".toList ++ c :: body)) = _
  rw [hsegments]
  simp only [assemble, Segment.whole, List.append_nil]
  rfl

/-- The text of a token of code, alone behind a tag, is that token again. So the text alone tells
the kind. -/
theorem tokenize_delimited {options : LexerOptions} {source : String} {t : Token}
    (h : (tokenizeWith options source).Delimits t) :
    tokenize ("<?php " ++ t.text) =
        ⟨[⟨.openTag, "<?php", .start, []⟩, ⟨t.kind, t.text, ⟨1, 6⟩, []⟩,
          ⟨.eof, "", (Position.mk 1 6).advance t.text.toList, []⟩], []⟩ ∧
      ∀ options' source' t', (tokenizeWith options' source').Delimits t' → t'.text = t.text →
        t'.kind = t.kind := by
  obtain ⟨c, body, more, htext, hlength, hreading⟩ := h.reads
  constructor
  · have halone := tokenize_alone hlength hreading
    rwa [← htext, String.ofList_toList] at halone
  · intro options' source' t' h' hsame
    obtain ⟨c', body', more', htext', -, hreading'⟩ := h'.reads
    rw [hsame, htext] at htext'
    obtain ⟨rfl, rfl⟩ := List.cons.inj htext'
    have hpiece := congrArg Reading.piece (hreading'.symm.trans hreading)
    exact Piece.token.inj hpiece

/-- A heredoc in front of a number and of a string without an end. -/
theorem tokenize_delimited_heredoc : ∃ t : Token, t.text = "<<<A\nAB\n A" ∧
    (tokenizeWith ⟨true⟩ "<? <<<A\nAB\n A.1e'").Delimits t ∧
    (tokenize ("<?php " ++ t.text)).tokens.map Token.kind = [.openTag, .heredoc, .eof] := by
  have h : (tokenizeWith ⟨true⟩ "<? <<<A\nAB\n A.1e'").Delimits
      ⟨.heredoc, "<<<A\nAB\n A", ⟨1, 3⟩, []⟩ := ⟨by decide +kernel, rfl, by decide +kernel⟩
  refine ⟨_, rfl, h, ?_⟩
  rw [(tokenize_delimited h).1]
  rfl

end Lexer

end PhpSyntax
