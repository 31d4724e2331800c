import Mathlib.Data.List.TakeWhile
import PhpSyntax.Proofs.Lexer.Tokens
import PhpSyntax.Proofs.Pattern.Delimited
import PhpSyntax.Proofs.Pattern.SourceChars

/-!
Cutting a literal at the delimiters before its escapes are decoded: the result is the same as
cutting the decoded text, unless an escape ends with the closing delimiter.
-/

namespace PhpSyntax

namespace Literal

/-- A character that ends a run also ends it where the run is cut off after `k` characters. -/
theorem takeWhile_take_append {p : Char → Bool} {d : Char} (hd : p d = false) (k : Nat)
    (cs ms : List Char) :
    ((cs ++ d :: ms).take k).takeWhile p = (cs.take k).takeWhile p := by
  induction cs generalizing k with
  | nil => cases k <;> simp [hd]
  | cons c cs ih =>
    cases k with
    | zero => rfl
    | succ k =>
      simp only [List.cons_append, List.take_succ_cons, List.takeWhile_cons, ih]

theorem takeWhile_append_cons {p : Char → Bool} {d : Char} (hd : p d = false)
    (cs ms : List Char) : (cs ++ d :: ms).takeWhile p = cs.takeWhile p := by
  induction cs with
  | nil => simp [hd]
  | cons c cs ih => simp only [List.cons_append, List.takeWhile_cons, ih]

/-- A character that no escape goes on with, except as its last one. -/
structure Closes (d : Char) : Prop where
  digit : Text.digitValue? d = none
  slash : d ≠ '\\'
  letter : d ≠ 'x' ∧ d ≠ 'u'
  brace : d ≠ '\x7b'

variable {d : Char}

theorem Closes.not_digit (hd : Closes d) (base : Nat) : Text.isDigitBelow base d = false := by
  simp [Text.isDigitBelow, Text.digitBelow?, hd.digit]

theorem octalEscape_append (hd : Closes d) (cs ms : List Char) :
    octalEscape? (cs ++ d :: ms) = octalEscape? cs := by
  simp only [octalEscape?, takeWhile_take_append (hd.not_digit 8)]

theorem hexEscape_append (hd : Closes d) (cs ms : List Char) :
    hexEscape? (cs ++ d :: ms) = hexEscape? cs := by
  simp only [hexEscape?, takeWhile_take_append (hd.not_digit 16)]

/-- An escape in braces either does not reach a character after the text, or ends with it. -/
theorem bracedEscape_append (hd : Closes d) (cs : List Char) :
    (∀ ms, bracedEscape? (cs ++ d :: ms) = bracedEscape? cs) ∨
      bracedEscape? cs = none ∧
        ∃ x, ∀ ms, bracedEscape? (cs ++ d :: ms) = some (x, cs.length + 1) := by
  have hbrace := hd.brace
  match cs with
  | [] =>
    refine .inl fun ms => ?_
    rw [List.nil_append]
    unfold bracedEscape?
    split <;> simp_all
  | c :: cs =>
    by_cases hc : c = '\x7b'
    · subst hc
      simp only [List.cons_append, bracedEscape?, takeWhile_append_cons (hd.not_digit 16)]
      generalize hrun : cs.takeWhile (Text.isDigitBelow 16) = run
      have hle : run.length ≤ cs.length := hrun ▸ (List.takeWhile_sublist _).length_le
      obtain hlt | heq := Nat.lt_or_eq_of_le hle
      · have hhead (ms : List Char) :
            ((cs ++ d :: ms).drop run.length).head? = (cs.drop run.length).head? := by
          rw [List.drop_append_of_le_length hle, List.head?_append_of_ne_nil]
          simpa using hlt
        exact .inl fun ms => by simp only [hhead]
      · have hhead (ms : List Char) : ((cs ++ d :: ms).drop cs.length).head? = some d := by
          rw [List.drop_left]
          rfl
        have hnone : (cs.drop cs.length).head? = none := by
          rw [List.drop_length]
          rfl
        simp only [heq, hhead, hnone]
        by_cases hd : d = '\x7d'
        · cases hx : charOfDigits? 16 run with
          | none => simp
          | some x => exact .inr ⟨rfl, x, by simp [hd]⟩
        · simp [hd]
    · refine .inl fun ms => ?_
      simp [bracedEscape?, hc]

theorem escape_append (hd : Closes d) (cs : List Char) :
    (∀ ms, escape? (cs ++ d :: ms) = escape? cs) ∨
      escape? cs = none ∧ ∃ x, ∀ ms, escape? (cs ++ d :: ms) = some (x, cs.length + 1) := by
  cases cs with
  | nil =>
    have hoctal (ms : List Char) : octalEscape? (d :: ms) = none := octalEscape_append hd [] ms
    cases hsimple : simpleEscape? d with
    | none =>
      refine .inl fun ms => ?_
      simp [escape?, hsimple, hd.letter.1, hd.letter.2, hoctal]
    | some x => exact .inr ⟨rfl, x, fun ms => by simp [escape?, hsimple]⟩
  | cons c cs =>
    simp only [List.cons_append, escape?]
    split
    · exact .inl fun _ => rfl
    split
    · exact .inl fun ms => by rw [hexEscape_append hd]
    split
    · obtain h | ⟨hnone, x, hx⟩ := bracedEscape_append hd cs
      · exact .inl fun ms => by rw [h]
      · exact .inr ⟨by rw [hnone]; rfl, x, fun ms => by rw [hx]; rfl⟩
    · exact .inl fun ms => octalEscape_append hd (c :: cs) ms

end Literal

namespace Pattern

open Literal

variable {d : Char}

theorem unescape_nil (quote : Quote) : unescape quote [] = [] := by
  cases quote <;> simp [unescape, unescapeSingle, unescapeDouble]

/-- A text stands for its first character and what the rest stands for. -/
theorem unescape_cons (quote : Quote) (c : Char) (cs : List Char) :
    unescape quote (c :: cs) = (decodeHead quote c cs).1 ::
      unescape quote (cs.drop ((decodeHead quote c cs).2 - 1)) := by
  cases quote with
  | single =>
    by_cases hc : c = '\\'
    · subst hc
      cases cs with
      | nil => simp [unescape, unescapeSingle, decodeHead]
      | cons b cs =>
        by_cases hslash : b = '\\'
        · simp [unescape, unescapeSingle, decodeHead, hslash]
        by_cases hquote : b = '\x27'
        · simp [unescape, unescapeSingle, decodeHead, hquote]
        · simp [unescape, unescapeSingle, decodeHead, hslash, hquote]
    · simp [unescape, unescapeSingle, decodeHead, hc]
  | double =>
    rw [unescape, unescapeDouble]
    by_cases hc : c = '\\'
    · cases h : escape? cs <;> simp [decodeHead, hc, h]
    · simp [decodeHead, hc]

/-- The characters of a decoded text are what the text stands for. -/
theorem decodeFrom_chars (quote : Quote) (offset : Nat) (cs : List Char) :
    (decodeFrom quote offset cs).map (·.char) = unescape quote cs := by
  induction offset, cs using decodeFrom.induct quote with
  | case1 offset => rw [decodeFrom, unescape_nil, List.map_nil]
  | case2 offset c cs decoded n hd ih =>
    rw [decodeFrom, unescape_cons, hd]
    simp only [List.map_cons, ih]

theorem decodeHead_append (quote : Quote) (hd : Closes d) (c : Char) (cs : List Char) :
    (∀ ms, decodeHead quote c (cs ++ d :: ms) = decodeHead quote c cs) ∨
      c = '\\' ∧ decodeHead quote c cs = ('\\', 1) ∧
        ∃ x, ∀ ms, decodeHead quote c (cs ++ d :: ms) = (x, cs.length + 2) := by
  by_cases hc : c = '\\'
  · cases quote with
    | single =>
      cases cs with
      | nil =>
        by_cases hquote : d = '\x27'
        · refine .inr ⟨hc, by simp [decodeHead, hc], '\x27', fun ms => ?_⟩
          simp [decodeHead, hc, hquote]
        · refine .inl fun ms => ?_
          have hslash := hd.slash
          simp only [decodeHead, hc, if_true, List.nil_append, List.head?_cons, List.head?_nil]
          split <;> simp_all
      | cons b cs => exact .inl fun ms => rfl
    | double =>
      obtain h | ⟨hnone, x, hx⟩ := escape_append hd cs
      · exact .inl fun ms => by simp only [decodeHead, h]
      · refine .inr ⟨hc, by simp [decodeHead, hc, hnone], x, fun ms => by simp [decodeHead, hc, hx]⟩
  · exact .inl fun ms => by simp [decodeHead, hc]

/-- Whether `c` is a backslash of `text` that stands for itself, but would start an escape if `d`
came after the text. -/
def isCutBy (quote : Quote) (text : List Char) (d : Char) (c : SourceChar) : Bool :=
  c.char = '\\' && c.span.stop = c.span.start + 1 &&
    (decodeHead quote '\\' (text.drop c.span.stop ++ [d])).2 ≠ 1

/-- A character that is read alike before `d` and at the end of the text is not cut. -/
theorem not_isCutBy {quote : Quote} {text cs : List Char} {c decoded : Char} {offset n : Nat}
    (htail : text.drop (offset + 1) = cs) (hhead : decodeHead quote c cs = (decoded, n))
    (hsame : decodeHead quote c (cs ++ [d]) = decodeHead quote c cs) :
    isCutBy quote text d ⟨decoded, ⟨offset, offset + n⟩⟩ = false := by
  by_contra hcut
  simp only [isCutBy, Bool.not_eq_false, Bool.and_eq_true, decide_eq_true_eq] at hcut
  obtain ⟨⟨rfl, hone⟩, hlong⟩ := hcut
  obtain rfl : n = 1 := by omega
  have hc : c = '\\' := by
    by_contra hc
    simp only [decodeHead, if_neg hc, Prod.mk.injEq] at hhead
    exact hc hhead.1
  rw [htail, ← hc, hsame, hhead] at hlong
  exact hlong rfl

/-- What two texts stand for with a character between them: the escapes of the first one end before
that character, or the escape that does not makes the whole shorter. -/
theorem unescape_append (quote : Quote) (hd : Closes d) (offset : Nat) (cs front : List Char)
    (hfront : front.length = offset) :
    (∃ c ∈ decodeFrom quote offset cs, isCutBy quote (front ++ cs) d c) ∧
        (∀ ms, (unescape quote (cs ++ d :: ms)).length <
          (unescape quote cs ++ d :: unescape quote ms).length) ∨
      (∀ c ∈ decodeFrom quote offset cs, isCutBy quote (front ++ cs) d c = false) ∧
        ∀ ms, unescape quote (cs ++ d :: ms) = unescape quote cs ++ d :: unescape quote ms := by
  induction offset, cs using decodeFrom.induct quote generalizing front with
  | case1 offset =>
    refine .inr ⟨by simp [decodeFrom], fun ms => ?_⟩
    rw [List.nil_append, unescape_cons, unescape_nil]
    simp [decodeHead, hd.slash]
  | case2 offset c cs decoded n hhead ih =>
    have hlength := decodeHead_length quote c cs
    rw [hhead] at hlength
    simp only at hlength
    rw [decodeFrom, hhead]
    have htail : (front ++ c :: cs).drop (offset + 1) = cs := by
      rw [← hfront, List.drop_length_add_append]
      rfl
    have hshort : unescape quote (c :: cs) = decoded :: unescape quote (cs.drop (n - 1)) := by
      rw [unescape_cons, hhead]
    obtain hsame | ⟨rfl, halone, x, hcross⟩ := decodeHead_append quote hd c cs
    -- the first character is read alike, and the induction goes on behind it
    · have hself : isCutBy quote (front ++ c :: cs) d ⟨decoded, ⟨offset, offset + n⟩⟩ = false :=
        not_isCutBy htail hhead (hsame [])
      have hrest : front ++ (c :: cs).take n ++ cs.drop (n - 1) = front ++ c :: cs := by
        have hdrop : cs.drop (n - 1) = (c :: cs).drop n := by
          rw [← Nat.sub_add_cancel hlength.1, List.drop_succ_cons, Nat.add_sub_cancel]
        rw [hdrop, List.append_assoc, List.take_append_drop]
      have hstep (ms : List Char) : unescape quote (c :: cs ++ d :: ms) =
          decoded :: unescape quote (cs.drop (n - 1) ++ d :: ms) := by
        rw [List.cons_append, unescape_cons, hsame, hhead,
          List.drop_append_of_le_length (by omega)]
      obtain ⟨⟨e, he, hcut⟩, hlt⟩ | ⟨hno, heq⟩ := ih (front ++ (c :: cs).take n) (by simp; omega)
      · rw [hrest] at hcut
        refine .inl ⟨⟨e, .tail _ he, hcut⟩, fun ms => ?_⟩
        rw [hstep, hshort]
        exact Nat.succ_lt_succ (hlt ms)
      · rw [hrest] at hno
        refine .inr ⟨List.forall_mem_cons.mpr ⟨hself, hno⟩, fun ms => ?_⟩
        rw [hstep, hshort, heq, List.cons_append]
    -- the escape takes the delimiter with it, and nothing of the first text is left behind it
    · refine .inl ⟨⟨_, .head _, ?_⟩, fun ms => ?_⟩
      · obtain ⟨rfl, rfl⟩ := Prod.mk.inj (hhead.symm.trans halone)
        simp only [isCutBy, htail, hcross]
        simp
      · rw [List.cons_append, unescape_cons, hcross, hshort]
        have hdrop : (cs ++ d :: ms).drop (cs.length + 2 - 1) = ms := by
          rw [Nat.add_sub_assoc (by decide), List.drop_length_add_append]
          rfl
        simp only [hdrop, List.length_cons, List.length_append]
        omega

namespace DelimitedPattern

/-- Whether a backslash of the pattern stands for itself only because the escape that it starts
ends with the closing delimiter. -/
def splitsEscape (p : DelimitedPattern) : Bool :=
  p.characters.any (isCutBy p.quote p.text.toList p.closeDelimiter)

end DelimitedPattern

theorem digitValue_eq_none {c : Char} (h : isWordLetter c = false) : Text.digitValue? c = none := by
  delta isWordLetter Char.isAlpha Char.isUpper Char.isLower Char.isDigit at h
  simp only [Bool.or_eq_false_iff, Bool.and_eq_false_iff, decide_eq_false_iff_not, ge_iff_le,
    Char.reduceVal, UInt32.le_iff_toNat_le, UInt32.reduceToNat] at h
  simp only [Text.digitValue?, Char.le_def, UInt32.le_iff_toNat_le, Bool.and_eq_true,
    decide_eq_true_eq, Char.reduceVal, UInt32.reduceToNat]
  rw [if_neg (by omega), if_neg (by omega), if_neg (by omega)]

/-- A closing delimiter can only be the last character of an escape. -/
theorem closes_closingDelimiter {c : Char} (h : isDelimiter c) : Closes (closingDelimiter c) := by
  unfold closingDelimiter
  split
  · exact ⟨by decide, by decide, by decide, by decide⟩
  · exact ⟨by decide, by decide, by decide, by decide⟩
  · exact ⟨by decide, by decide, by decide, by decide⟩
  · exact ⟨by decide, by decide, by decide, by decide⟩
  · rename_i hbrace _
    simp only [isDelimiter, Bool.not_eq_true', Bool.or_eq_false_iff, decide_eq_false_iff_not] at h
    have hword : ∀ d, isWordLetter d = true → c ≠ d := by
      rintro d hd rfl
      simp [hd] at h
    exact ⟨digitValue_eq_none h.1.1.1.1, h.1.1.2, ⟨hword _ (by decide), hword _ (by decide)⟩,
      hbrace⟩

/-- A literal that is a token on its own stands for its text without the quotes. -/
theorem textValue_eq {literal : String} {quote : Quote} {body : List Char}
    (h : literal.toList = quote.mark :: (body ++ [quote.mark])) :
    textValue? literal = some (String.ofList (unescape quote body)) := by
  have hquote : Quote.ofHead? (quote.mark :: (body ++ [quote.mark])) = some quote := by
    cases quote <;> rfl
  have hlast : (quote.mark :: (body ++ [quote.mark])).getLast? = some quote.mark := by
    rw [← List.cons_append]
    exact List.getLast?_concat
  simp [textValue?, h, hquote, hlast]

theorem unescape_append_of_ne (quote : Quote) {cs : List Char} (h : ∀ c ∈ cs, c ≠ '\\')
    (ds : List Char) : unescape quote (cs ++ ds) = cs ++ unescape quote ds := by
  induction cs with
  | nil => rfl
  | cons c cs ih =>
    rw [List.forall_mem_cons] at h
    rw [List.cons_append, unescape_cons, List.cons_append, ← ih h.2]
    simp [decodeHead, h.1]

/-- A text is cut in one way only into white space and what starts with another character. -/
theorem blanks_inj {as bs r s : List Char} {c : Char} (ha : ∀ a ∈ as, Text.isWhiteSpace a)
    (hb : ∀ b ∈ bs, Text.isWhiteSpace b) (hc : Text.isWhiteSpace c = false)
    (h : as ++ c :: r = bs ++ c :: s) : r = s := by
  have hdrop := congrArg (List.dropWhile Text.isWhiteSpace) h
  rw [List.dropWhile_append_of_pos ha, List.dropWhile_append_of_pos hb] at hdrop
  simpa [hc] using hdrop

/-- The text of a literal is cut by the delimiters after decoding just where the pattern is cut
before it, except for a pattern whose closing delimiter ends an escape. -/
theorem ofLiteral_decodes_iff {options : Lexer.LexerOptions} {source : String}
    (hlex : (Lexer.tokenizeWith options source).errors = []) {token : Token}
    (htoken : token ∈ (Lexer.tokenizeWith options source).tokens)
    (hkind : token.kind = .singleQuotedString ∨ token.kind = .doubleQuotedString)
    {p : DelimitedPattern}
    (hp : DelimitedPattern.ofLiteral (.leaf .regularStringLiteral token) = .ok p) :
    (∃ blanks : List Char, (∀ c ∈ blanks, Text.isWhiteSpace c) ∧
      textValue? token.text = some (String.ofList (blanks ++ p.openDelimiter ::
        (p.characters.map (·.char) ++ p.closeDelimiter ::
          (decode p.quote p.modifiers).map (·.char))))) ↔
      p.splitsEscape = false := by
  obtain ⟨t, blanks, last, htree, hwritten⟩ := DelimitedPattern.ofLiteral_writtenIn hp
  obtain rfl : token = t := by simpa using htree
  obtain ⟨first, body, hquoted⟩ := (Lexer.tokenizeWith_stands hlex token htoken).quoted hkind
  have hfirst : first = p.quote.mark := by
    have hhead := congrArg List.head? (hquoted.symm.trans hwritten.text)
    simpa using hhead
  have hlast : last = p.quote.mark := by
    have hend := congrArg List.getLast? (hquoted.symm.trans hwritten.text)
    simpa [hfirst, List.getLast?_cons] using hend.symm
  have htext : token.text.toList = p.quote.mark :: ((blanks ++ p.openDelimiter ::
      (p.text.toList ++ p.closeDelimiter :: p.modifiers.toList)) ++ [p.quote.mark]) := by
    rw [hwritten.text, hlast]
    simp
  have hopen : Text.isWhiteSpace p.openDelimiter = false ∧ p.openDelimiter ≠ '\\' := by
    have h := hwritten.delimiter
    simp only [isDelimiter, Bool.not_eq_true', Bool.or_eq_false_iff, decide_eq_false_iff_not] at h
    exact ⟨h.1.2, h.1.1.2⟩
  have hblank : ∀ c ∈ blanks, c ≠ '\\' := by
    rintro c hc rfl
    exact absurd (hwritten.blank _ hc) (by decide)
  have hvalue : unescape p.quote (blanks ++ p.openDelimiter ::
      (p.text.toList ++ p.closeDelimiter :: p.modifiers.toList)) = blanks ++ p.openDelimiter ::
        unescape p.quote (p.text.toList ++ p.closeDelimiter :: p.modifiers.toList) := by
    rw [unescape_append_of_ne _ hblank, ← List.singleton_append, unescape_append_of_ne]
    · rfl
    · simpa using hopen.2
  rw [textValue_eq htext, hvalue]
  simp only [DelimitedPattern.characters, decode, decodeFrom_chars, Option.some.injEq,
    String.ofList_inj]
  have hcloses : Closes p.closeDelimiter :=
    hwritten.close ▸ closes_closingDelimiter hwritten.delimiter
  obtain ⟨⟨c, hc, hcut⟩, hlt⟩ | ⟨hwhole, heq⟩ :=
    unescape_append p.quote hcloses 0 p.text.toList [] rfl
  · have hsplits : p.splitsEscape = true := List.any_eq_true.mpr ⟨c, hc, hcut⟩
    simp only [hsplits, Bool.true_eq_false, iff_false, not_exists, not_and]
    intro others hothers hsame
    have hrest := blanks_inj hwritten.blank hothers hopen.1 hsame
    exact Nat.ne_of_lt (hlt p.modifiers.toList) (congrArg List.length hrest)
  · have hsplits : p.splitsEscape = false := List.any_eq_false.mpr fun c hc =>
      Bool.not_eq_true _ ▸ hwhole c hc
    simp only [hsplits, iff_true]
    exact ⟨blanks, hwritten.blank, by rw [heq]⟩

/-- The escape for a letter and the one for a slash stay whole, and the modifier is found. -/
theorem ofLiteral_decodes_slashes :
    let token : Token := ⟨.doubleQuotedString, "\" /\\x41\\57/i\"", ⟨1, 6⟩, []⟩
    ∃ blanks : List Char, (∀ c ∈ blanks, Text.isWhiteSpace c) ∧
      textValue? token.text = some (String.ofList (blanks ++ '/' ::
        ((decode .double "\\x41\\57").map (·.char) ++ '/' ::
          (decode .double "i").map (·.char)))) := by
  intro token
  have hlex : (Lexer.tokenizeWith ⟨false⟩ "<?php \" /\\x41\\57/i\";").errors = [] := by
    decide +kernel
  have htoken : token ∈ (Lexer.tokenizeWith ⟨false⟩ "<?php \" /\\x41\\57/i\";").tokens := by
    decide +kernel
  have hp : DelimitedPattern.ofLiteral (.leaf .regularStringLiteral token) =
      .ok ⟨"\\x41\\57", .double, '/', '/', "i", ⟨1, 9⟩⟩ := by decide +kernel
  exact (ofLiteral_decodes_iff hlex htoken (.inr rfl) hp).mpr (by decide +kernel)

/-- An escape that stands for the closing brace ends with a brace, and the pattern is cut there. -/
theorem ofLiteral_splits_escape :
    let token : Token := ⟨.doubleQuotedString, "\"\x7ba\\u\x7b7d\x7d\"", ⟨1, 6⟩, []⟩
    let lexed := Lexer.tokenizeWith ⟨false⟩ "<?php \"\x7ba\\u\x7b7d\x7d\";"
    let p : DelimitedPattern := ⟨"a\\u\x7b7d", .double, '\x7b', '\x7d', "", ⟨1, 8⟩⟩
    lexed.errors = [] ∧ token ∈ lexed.tokens ∧
      DelimitedPattern.ofLiteral (.leaf .regularStringLiteral token) = .ok p ∧
      textValue? token.text = some "\x7ba\x7d" ∧
      ¬∃ blanks : List Char, (∀ c ∈ blanks, Text.isWhiteSpace c) ∧
        textValue? token.text = some (String.ofList (blanks ++ p.openDelimiter ::
          (p.characters.map (·.char) ++ p.closeDelimiter ::
            (decode p.quote p.modifiers).map (·.char)))) := by
  intro token lexed p
  have hvalue : textValue? token.text = some "\x7ba\x7d" := by decide +kernel
  refine ⟨by decide +kernel, by decide +kernel, by decide +kernel, hvalue, ?_⟩
  rintro ⟨blanks, -, h⟩
  rw [hvalue, Option.some.injEq] at h
  have hlength := congrArg (fun s => s.toList.length) h
  have hcharacters : p.characters.length = 6 := by decide +kernel
  simp [hcharacters] at hlength
  omega

end Pattern

end PhpSyntax
