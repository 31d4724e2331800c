import PhpSyntax.Lexer.Scan

namespace PhpSyntax.Lexer

theorem quotedRun_closed {close : Char} {interpolates : Bool} {state : QuotedState}
    {cs : List Char} (h : (quotedRun close interpolates state cs).closed) :
    ∃ body, cs.take (quotedRun close interpolates state cs).length = body ++ [close] := by
  induction cs generalizing state with
  | nil => simp [quotedRun] at h
  | cons c cs ih =>
    unfold quotedRun at h ⊢
    split
    · rename_i hc
      have hc : state = .plain ∧ c = close := by simpa using hc
      exact ⟨[], by simp [hc.2]⟩
    · rename_i hc
      rw [if_neg hc] at h
      obtain ⟨body, hbody⟩ := ih h
      exact ⟨c :: body, by simp [hbody]⟩

namespace Reading

/-- What holds of a reading of `c :: cs`: what it drops is a single character, which is white
space or reported, and a string without interpolation ends with the quote that it starts with. -/
def Fits (c : Char) (cs : List Char) (r : Reading) : Prop :=
  match r.piece with
  | .blank => r.more = 0 ∧ r.fault = none ∧ Text.isWhiteSpace c
  | .stray => r.more = 0 ∧ r.fault = some (.unexpectedCharacter c)
  | .comment => True
  | .token kind => kind ≠ .eof ∧
      (kind = .singleQuotedString ∨ kind = .doubleQuotedString → r.fault = none →
        ∃ body, cs.take r.more = body ++ [c])

namespace Fits

theorem blank {c : Char} (h : Text.isWhiteSpace c) (cs : List Char) : (sound .blank 0).Fits c cs :=
  ⟨rfl, rfl, h⟩

theorem token (c : Char) (cs : List Char) {kind : TokenKind} (h : kind ≠ .eof)
    (hs : kind ≠ .singleQuotedString) (hd : kind ≠ .doubleQuotedString) (n : Nat) :
    (sound (.token kind) n).Fits c cs :=
  ⟨h, fun hk => (hk.elim hs hd).elim⟩

theorem ite {c : Char} {cs : List Char} {p : Prop} [Decidable p] {r r' : Reading}
    (h : p → r.Fits c cs) (h' : r'.Fits c cs) : (if p then r else r').Fits c cs := by
  split
  · exact h ‹p›
  · exact h'

end Fits

end Reading

theorem readLineComment_fits (c : Char) (cs : List Char) : (readLineComment cs).Fits c cs :=
  trivial

theorem readBlockComment_fits (c : Char) (cs : List Char) : (readBlockComment cs).Fits c cs :=
  trivial

theorem readQuoted_fits (close : Char) (interpolates : Bool) {kind expanded : TokenKind}
    (hk : kind ≠ .eof) (he : expanded ≠ .eof) (cs : List Char) :
    (readQuoted close interpolates kind expanded cs).Fits close cs := by
  refine ⟨?_, fun _ hf => ?_⟩
  · split
    · exact he
    · exact hk
  · apply quotedRun_closed
    cases hc : (quotedRun close interpolates .plain cs).closed with
    | true => rfl
    | false => simp [readQuoted, hc] at hf

theorem readHeredoc_fits (c : Char) (header : HeredocHeader) (cs : List Char) :
    (readHeredoc header cs).Fits c cs := by
  refine ⟨?_, fun hk => ?_⟩
  · split <;> simp
  · split at hk <;> simp at hk

theorem readPunctuator_fits (c : Char) (cs : List Char) : (readPunctuator c cs).Fits c cs := by
  unfold readPunctuator
  split
  · exact Reading.Fits.token c cs (by simp) (by simp) (by simp) _
  · exact ⟨rfl, rfl⟩

theorem numberLength_kind (c : Char) (cs : List Char) :
    (numberLength c cs).1 = .integer ∨ (numberLength c cs).1 = .float := by
  unfold numberLength
  split
  · exact .inl rfl
  · exact iteInduction (motive := fun k => k = TokenKind.integer ∨ k = .float)
      (fun _ => .inr rfl) (fun _ => .inl rfl)

inductive CodeReading (c : Char) (cs : List Char) : Reading → Prop
  | blank (h : Text.isWhiteSpace c) : CodeReading c cs (.sound .blank 0)
  | closeTag : CodeReading c cs (.sound (.token .closeTag) 1)
  | lineComment (h : c ≠ '/' ∨ cs.head? = some '/') : CodeReading c cs (readLineComment cs)
  | blockComment (h : c = '/') (hnext : cs.head? = some '*') : CodeReading c cs (readBlockComment cs)
  | variableName : CodeReading c cs (.sound (.token .variableName) (runLength isNameChar cs))
  | name : CodeReading c cs (.sound (.token .identifier) (nameLength cs))
  | number (h : c.isDigit ∨ c = '.') :
    CodeReading c cs (.sound (.token (numberLength c cs).1) (numberLength c cs).2)
  | singleQuoted (h : c = '\x27') :
    CodeReading c cs (readQuoted c false .singleQuotedString .singleQuotedString cs)
  | doubleQuoted (h : c = '\x22') :
    CodeReading c cs (readQuoted c true .doubleQuotedString .expandableString cs)
  | shellCommand (h : c = '\x60') :
    CodeReading c cs (readQuoted c true .shellCommand .shellCommand cs)
  | heredoc {header : HeredocHeader} (h : "<<".toList.isPrefixOf cs)
    (hheader : heredocHeader? (cs.drop 2) = some header) (hc : c = '<') :
    CodeReading c cs (readHeredoc header cs)
  | cast (more : Nat) : CodeReading c cs (.sound (.token .cast) more)
  | punctuator : CodeReading c cs (readPunctuator c cs)

theorem CodeReading.ite {c : Char} {cs : List Char} {p : Prop} [Decidable p] {r r' : Reading}
    (h : p → CodeReading c cs r) (h' : CodeReading c cs r') :
    CodeReading c cs (if p then r else r') := by
  split
  · exact h ‹p›
  · exact h'

theorem readCode_cases (c : Char) (cs : List Char) : CodeReading c cs (readCode c cs) := by
  unfold readCode
  refine .ite .blank ?_
  refine .ite (fun _ => .closeTag) ?_
  refine .ite (fun _ => .punctuator) ?_
  refine .ite (fun hc => .lineComment (.inl (by simp [hc]))) ?_
  refine .ite (fun hc => .lineComment (.inr (by simpa using (Bool.and_eq_true_iff.mp hc).2))) ?_
  refine .ite (fun hc => ?_) ?_
  · rw [Bool.and_eq_true, decide_eq_true_eq, decide_eq_true_eq] at hc
    exact .blockComment hc.1 hc.2
  refine .ite (fun _ => .variableName) ?_
  refine .ite (fun _ => .name) ?_
  refine .ite (fun hc => .number ((Bool.or_eq_true_iff.mp hc).imp id fun h => ?_)) ?_
  · exact of_decide_eq_true (Bool.and_eq_true_iff.mp h).1
  refine .ite .singleQuoted ?_
  refine .ite .doubleQuoted ?_
  refine .ite .shellCommand ?_
  split
  · next header hheader =>
    split at hheader
    · next hc =>
      obtain ⟨hc, hangle⟩ := Bool.and_eq_true_iff.mp hc
      exact .heredoc hangle hheader (of_decide_eq_true hc)
    · cases hheader
  split
  · exact .cast _
  · exact .punctuator

theorem readCode_fits (c : Char) (cs : List Char) : (readCode c cs).Fits c cs := by
  have h := readCode_cases c cs
  generalize readCode c cs = r at h ⊢
  cases h with
  | blank h => exact .blank h cs
  | lineComment => exact readLineComment_fits c cs
  | blockComment => exact readBlockComment_fits c cs
  | number =>
    obtain h | h := numberLength_kind c cs
    · simpa only [h] using .token c cs (by simp) (by simp) (by simp) _
    · simpa only [h] using .token c cs (by simp) (by simp) (by simp) _
  | singleQuoted => exact readQuoted_fits c _ (by simp) (by simp) cs
  | doubleQuoted => exact readQuoted_fits c _ (by simp) (by simp) cs
  | shellCommand => exact readQuoted_fits c _ (by simp) (by simp) cs
  | heredoc => exact readHeredoc_fits c _ cs
  | punctuator => exact readPunctuator_fits c cs
  | closeTag | variableName | name | cast =>
    exact .token c cs (by simp) (by simp) (by simp) _

theorem openTagAt_kind {options : LexerOptions} {cs : List Char} {kind : TokenKind} {n : Nat}
    (h : openTagAt? options cs = some (kind, n)) : kind = .openTag ∨ kind = .openTagWithEcho := by
  unfold openTagAt? at h
  split at h
  · split at h <;> simp_all
  · split at h
    · simp_all
    · split at h <;> simp_all

theorem readHtml_fits (options : LexerOptions) (c : Char) (cs : List Char) :
    (readHtml options c cs).Fits c cs := by
  unfold readHtml
  split
  · rename_i kind n h
    obtain rfl | rfl := openTagAt_kind h
    · exact Reading.Fits.token c cs (by simp) (by simp) (by simp) _
    · exact Reading.Fits.token c cs (by simp) (by simp) (by simp) _
  · exact Reading.Fits.token c cs (by simp) (by simp) (by simp) _

end PhpSyntax.Lexer
