import PhpSyntax.Proofs.Lexer.SelfDelimiting

/-!
Where heredocs end. After the header the lines are read one by one, and the first of them that
starts with the label, behind blanks perhaps and not as a part of a longer name, closes the heredoc.
-/

namespace PhpSyntax

structure Token.IsHeredoc (cs : List Char) (t : Token) (l : Lexer.HeaderLine) (after : List Char) :
    Prop where
  header : l.Valid
  kind : t.kind = if l.quote = some '\x27' then .nowdoc else .heredoc
  stands : ∃ offset, t.StandsAt cs offset ∧ cs.drop offset = "<<<".toList ++ l.text ++ after

namespace Lexer

def IsLine (line : List Char) : Prop :=
  ∃ front, '\n' ∉ front ∧ line = front ++ ['\n']

def Closes (label line : List Char) : Prop :=
  ∃ blanks rest, ClosesAt label line blanks rest

/-- Whether a text has a line that closes a heredoc; all lines in front of it have their ends. -/
def HasClosingLine (label text : List Char) : Prop :=
  ∃ (lines : List (List Char)) (last : List Char),
    (∀ line ∈ lines, IsLine line) ∧ text = lines.flatten ++ last ∧ Closes label last

/-- The first line of a text that closes a heredoc comes after `lines`, and `rest` follows the label
on it. -/
structure ClosesFirst (label text : List Char) (lines : List (List Char))
    (blanks rest : List Char) : Prop where
  split : text = lines.flatten ++ (blanks ++ (label ++ rest))
  isLine : ∀ line ∈ lines, IsLine line
  stays : ∀ line ∈ lines, ¬ Closes label line
  blanks : ∀ c ∈ blanks, isBlank c = true
  next : startsWith isNameChar rest = false

/-- A text is a number of lines with their ends, and a last one without. -/
theorem exists_lines (text : List Char) :
    ∃ (lines : List (List Char)) (last : List Char),
      (∀ line ∈ lines, IsLine line) ∧ text = lines.flatten ++ last ∧ '\n' ∉ last := by
  induction text with
  | nil => exact ⟨[], [], List.forall_mem_nil _, rfl, List.not_mem_nil⟩
  | cons c text ih =>
    obtain ⟨lines, last, hlines, rfl, hlast⟩ := ih
    by_cases hc : c = '\n'
    · subst hc
      exact ⟨['\n'] :: lines, last, List.forall_mem_cons.mpr ⟨⟨[], List.not_mem_nil, rfl⟩, hlines⟩,
        rfl, hlast⟩
    · cases lines with
      | nil => exact ⟨[], c :: last, hlines, rfl, by simp [Ne.symm hc, hlast]⟩
      | cons line lines =>
        rw [List.forall_mem_cons] at hlines
        obtain ⟨⟨front, hfront, rfl⟩, hlines⟩ := hlines
        refine ⟨(c :: front ++ ['\n']) :: lines, last, List.forall_mem_cons.mpr
          ⟨⟨c :: front, ?_, rfl⟩, hlines⟩, rfl, hlast⟩
        simp [Ne.symm hc, hfront]

section Runs

variable {label text : List Char}

theorem ClosesFirst.cons {line : List Char} {lines : List (List Char)} {blanks rest : List Char}
    (h : ClosesFirst label text lines blanks rest) (hline : IsLine line)
    (hstays : ¬ Closes label line) :
    ClosesFirst label (line ++ text) (line :: lines) blanks rest where
  split := by rw [h.split, List.flatten_cons, List.append_assoc]
  isLine := List.forall_mem_cons.mpr ⟨hline, h.isLine⟩
  stays := List.forall_mem_cons.mpr ⟨hstays, h.stays⟩
  blanks := h.blanks
  next := h.next

theorem ClosesFirst.take_eq {lines : List (List Char)} {blanks rest : List Char}
    (h : ClosesFirst label text lines blanks rest) :
    text.take (lines.flatten ++ (blanks ++ label)).length = lines.flatten ++ (blanks ++ label) := by
  have hsplit : text = (lines.flatten ++ (blanks ++ label)) ++ rest := by
    rw [h.split, List.append_assoc, List.append_assoc]
  rw [hsplit, List.take_left]

theorem heredocRun_no_feed (h : '\n' ∉ text) : (heredocRun label false text).2 = false := by
  rw [Bool.eq_false_iff]
  intro hclosed
  exact h (List.mem_of_mem_take (heredocRun_feed (Prod.ext rfl hclosed)))

/-- A line that does not close the heredoc is taken as a whole. -/
theorem heredocRun_line {front : List Char} (hfront : '\n' ∉ front) (rest : List Char)
    {atLineStart : Bool}
    (h : (if atLineStart then closingLength? label (front ++ '\n' :: rest) else none) = none) :
    heredocRun label atLineStart (front ++ '\n' :: rest) =
      ((heredocRun label true rest).1 + (front.length + 1), (heredocRun label true rest).2) := by
  induction front generalizing atLineStart with
  | nil =>
    rw [List.nil_append] at h ⊢
    rw [heredocRun, h]
    rfl
  | cons c front ih =>
    rw [List.mem_cons, not_or] at hfront
    have hc : decide (c = '\n') = false := decide_eq_false (Ne.symm hfront.1)
    have hrest : heredocRun label false (front ++ '\n' :: rest) = _ := ih hfront.2 rfl
    rw [List.cons_append] at h ⊢
    rw [heredocRun, h]
    dsimp only
    rw [hc, hrest]
    rfl

end Runs

section Header

variable {l : HeaderLine} (hl : l.Valid) {text : List Char}
include hl

theorem closes_iff {line : List Char} :
    Closes l.label line ↔ closingLength? l.label line ≠ none := by
  rw [Option.ne_none_iff_exists']
  constructor
  · rintro ⟨blanks, rest, h⟩
    exact ⟨_, (closingLength?_eq_some hl.start).mpr ⟨blanks, rest, h, rfl⟩⟩
  · rintro ⟨n, hn⟩
    obtain ⟨blanks, rest, h, -⟩ := (closingLength?_eq_some hl.start).mp hn
    exact ⟨blanks, rest, h⟩

theorem heredocRun_closing {blanks rest : List Char} (h : ClosesAt l.label text blanks rest) :
    heredocRun l.label true text = ((blanks ++ l.label).length, true) := by
  have hclosing := (closingLength?_eq_some hl.start).mpr ⟨blanks, rest, h, rfl⟩
  cases text with
  | nil =>
    have hsplit := h.split
    simp [hl.label_ne_nil] at hsplit
  | cons c text => rw [heredocRun, if_pos rfl, hclosing]

/-- The lines after a line do not tell whether it closes the heredoc. -/
theorem closes_append_iff {line : List Char} (hline : IsLine line) (rest : List Char) :
    Closes l.label (line ++ rest) ↔ Closes l.label line := by
  obtain ⟨front, -, rfl⟩ := hline
  rw [List.append_assoc, List.singleton_append, closes_iff hl, closes_iff hl,
    closingLength?_line hl.newline_notMem front [] rest]

theorem heredocRun_stays {line : List Char} (hline : IsLine line)
    (hstays : ¬ Closes l.label line) (rest : List Char) :
    heredocRun l.label true (line ++ rest) =
      ((heredocRun l.label true rest).1 + line.length, (heredocRun l.label true rest).2) := by
  rw [← closes_append_iff hl hline rest, closes_iff hl, not_not] at hstays
  obtain ⟨front, hfront, rfl⟩ := hline
  rw [List.append_assoc, List.singleton_append] at hstays ⊢
  rw [List.length_append]
  exact heredocRun_line hfront rest ((if_pos rfl).trans hstays)

theorem heredocRun_last (hlast : '\n' ∉ text) (hopen : ¬ Closes l.label text) :
    (heredocRun l.label true text).2 = false := by
  rw [closes_iff hl, not_not] at hopen
  cases text with
  | nil => rfl
  | cons c text =>
    rw [List.mem_cons, not_or] at hlast
    rw [heredocRun, if_pos rfl, hopen]
    dsimp only
    rw [decide_eq_false (Ne.symm hlast.1)]
    exact heredocRun_no_feed hlast.2

/-- A heredoc ends with the label on the first line that closes it. -/
theorem heredocRun_first {lines : List (List Char)} {blanks rest : List Char}
    (h : ClosesFirst l.label text lines blanks rest) :
    heredocRun l.label true text = ((lines.flatten ++ (blanks ++ l.label)).length, true) := by
  obtain ⟨rfl, hlines, hstays, hblanks, hnext⟩ := h
  induction lines with
  | nil => exact heredocRun_closing hl ⟨rfl, hblanks, hnext⟩
  | cons line lines ih =>
    rw [List.forall_mem_cons] at hlines hstays
    rw [List.flatten_cons, List.append_assoc, heredocRun_stays hl hlines.1 hstays.1,
      ih hlines.2 hstays.2, List.append_assoc, @List.length_append _ line, Nat.add_comm]

/-- Among the lines that close a heredoc there is a first one. -/
theorem HasClosingLine.exists_first (h : HasClosingLine l.label text) :
    ∃ lines blanks rest, ClosesFirst l.label text lines blanks rest := by
  have here : ∀ {text}, Closes l.label text →
      ∃ lines blanks rest, ClosesFirst l.label text lines blanks rest := by
    rintro text ⟨blanks, rest, hsplit, hblanks, hnext⟩
    exact ⟨[], blanks, rest, hsplit, List.forall_mem_nil _, List.forall_mem_nil _, hblanks, hnext⟩
  obtain ⟨lines, last, hlines, rfl, hcloses⟩ := h
  induction lines with
  | nil => exact here hcloses
  | cons line lines ih =>
    rw [List.forall_mem_cons] at hlines
    rw [List.flatten_cons, List.append_assoc]
    by_cases hline : Closes l.label line
    · exact here ((closes_append_iff hl hlines.1 _).mpr hline)
    · obtain ⟨before, blanks, rest, hfirst⟩ := ih hlines.2
      exact ⟨line :: before, blanks, rest, hfirst.cons hlines.1 hline⟩

theorem hasClosingLine_of_run (h : (heredocRun l.label true text).2 = true) :
    HasClosingLine l.label text := by
  obtain ⟨lines, last, hlines, rfl, hlast⟩ := exists_lines text
  induction lines with
  | nil =>
    refine ⟨[], last, hlines, rfl, by_contra fun hopen => ?_⟩
    exact Bool.false_ne_true ((heredocRun_last hl hlast hopen).symm.trans h)
  | cons line lines ih =>
    rw [List.forall_mem_cons] at hlines
    rw [List.flatten_cons, List.append_assoc] at h ⊢
    by_cases hline : Closes l.label line
    · exact ⟨[], _, List.forall_mem_nil _, rfl, (closes_append_iff hl hlines.1 _).mpr hline⟩
    · rw [heredocRun_stays hl hlines.1 hline] at h
      obtain ⟨before, rest, hbefore, hsplit, hcloses⟩ := ih hlines.2 h
      refine ⟨line :: before, rest, List.forall_mem_cons.mpr ⟨hlines.1, hbefore⟩, ?_, hcloses⟩
      rw [hsplit, List.flatten_cons, List.append_assoc]

theorem heredocRun_closed_iff :
    (heredocRun l.label true text).2 = true ↔ HasClosingLine l.label text := by
  refine ⟨hasClosingLine_of_run hl, fun h => ?_⟩
  obtain ⟨lines, blanks, rest, hfirst⟩ := h.exists_first hl
  rw [heredocRun_first hl hfirst]

/-- A heredoc runs to the end of the text if no line closes it. -/
theorem heredocRun_unclosed (h : ¬ HasClosingLine l.label text) :
    heredocRun l.label true text = (text.length, false) := by
  have hopen : (heredocRun l.label true text).2 = false :=
    Bool.eq_false_iff.mpr (mt (heredocRun_closed_iff hl).mp h)
  exact Prod.ext (heredocRun_open hopen) hopen

end Header

/-- A reading of a heredoc starts with a header. -/
theorem readCode_heredoc {c : Char} {cs : List Char} {kind : TokenKind}
    (h : (readCode c cs).piece = .token kind) (hkind : kind = .heredoc ∨ kind = .nowdoc) :
    c = '<' ∧ ∃ l : HeaderLine, l.Valid ∧ ∃ after, cs = "<<".toList ++ l.text ++ after ∧
      readCode c cs = readHeredoc l.header cs := by
  have hcases := readCode_cases c cs
  generalize readCode c cs = r at h hcases
  cases hcases with
  | heredoc hangle hheader hc =>
    have hat : heredocAt? c cs = _ :=
      (if_pos (Bool.and_eq_true_iff.mpr ⟨decide_eq_true hc, hangle⟩)).trans hheader
    obtain ⟨hc, l, hl, rfl, after, hcs⟩ := heredocAt?_eq_some.mp hat
    exact ⟨hc, l, hl, after, hcs, rfl⟩
  | blank | lineComment | blockComment => cases h
  | closeTag | variableName | name | cast =>
    cases h
    simp at hkind
  | number =>
    cases h
    obtain h | h := numberLength_kind c cs <;> simp [h] at hkind
  | singleQuoted | doubleQuoted | shellCommand =>
    cases h
    split at hkind <;> simp at hkind
  | punctuator =>
    unfold readPunctuator at h
    split at h
    · cases h
      simp at hkind
    · cases h

structure Lexed.EndsHeredoc (lexed : Lexed) (t : Token) (l : HeaderLine) (after : List Char) :
    Prop where
  /-- It is reported if and only if no line closes it. -/
  reported : (∃ label, ⟨.unterminatedHeredoc label, t.start⟩ ∈ lexed.errors) ↔
    ¬ HasClosingLine l.label after
  /-- If it is not reported, it ends with the label on the first line that closes it. -/
  closed : (∀ label, ⟨.unterminatedHeredoc label, t.start⟩ ∉ lexed.errors) →
    ∃ lines blanks rest, ClosesFirst l.label after lines blanks rest ∧
      t.text.toList = "<<<".toList ++ l.text ++ (lines.flatten ++ (blanks ++ l.label))
  /-- Otherwise the error tells the label, and it runs to the end of the source. -/
  unclosed : ¬ HasClosingLine l.label after →
    ⟨.unterminatedHeredoc (String.ofList l.label), t.start⟩ ∈ lexed.errors ∧
      t.text.toList = "<<<".toList ++ l.text ++ after

/-- A heredoc ends at the first line that closes it. -/
theorem tokenizeWith_endsHeredocs {options : LexerOptions} {source : String} {t : Token}
    (ht : t ∈ (tokenizeWith options source).tokens)
    (hkind : t.kind = .heredoc ∨ t.kind = .nowdoc) :
    ∃ l after, t.IsHeredoc source.toList l after ∧
      (tokenizeWith options source).EndsHeredoc t l after := by
  have hcode : t.kind.isCode = true := by obtain h | h := hkind <;> rw [h] <;> rfl
  obtain ⟨front, c, cs, hsource, hstart, hpiece, htext, hfaults⟩ := tokenizeWith_reads ht hcode
  obtain ⟨rfl, l, hl, after, rfl, hread⟩ := readCode_heredoc hpiece hkind
  rw [hread, readHeredoc_eq] at hpiece htext hfaults
  have htext : t.text.toList =
      "<<<".toList ++ l.text ++ after.take (heredocRun l.label true after).1 := by
    rw [htext, List.take_length_add_append]
    rfl
  have hsplit : '<' :: ("<<".toList ++ l.text ++ after) =
      t.text.toList ++ after.drop (heredocRun l.label true after).1 := by
    rw [htext, List.append_assoc _ (after.take _), List.take_append_drop]
    rfl
  have hstands : t.StandsAt source.toList (markLength source.toList + front.length) :=
    .of_append (hsplit ▸ hsource) hstart
  have hheredoc : t.IsHeredoc source.toList l after := by
    refine ⟨hl, ?_, _, hstands, drop_markLength_add hsource⟩
    rw [← Piece.token.inj hpiece]
    simp [HeaderLine.header]
  have hreported : (∃ label, ⟨.unterminatedHeredoc label, t.start⟩ ∈
      (tokenizeWith options source).errors) ↔ ¬ HasClosingLine l.label after := by
    simp only [hfaults, ← heredocRun_closed_iff hl]
    simp
  refine ⟨l, after, hheredoc, hreported, fun hsound => ?_, fun hopen => ?_⟩
  · have hclosing : HasClosingLine l.label after :=
      not_not.mp (mt hreported.mpr (not_exists.mpr hsound))
    obtain ⟨lines, blanks, rest, hfirst⟩ := hclosing.exists_first hl
    refine ⟨lines, blanks, rest, hfirst, ?_⟩
    rw [htext, heredocRun_first hl hfirst, hfirst.take_eq]
  · rw [heredocRun_unclosed hl hopen] at hfaults htext
    exact ⟨(hfaults _).mpr rfl, by rw [htext, List.take_length]⟩

/-- A label inside of a longer name and one in the middle of a line do not close a nowdoc. -/
theorem tokenize_endsHeredoc_indented : ∃ t : Token, t.text = "<<< 'A'\r\nAB\nx A\n\tA" ∧
    t ∈ (tokenize "<?php <<< 'A'\r\nAB\nx A\n\tA;A").tokens ∧ t.kind = .nowdoc ∧
    ∃ l after, t.IsHeredoc "<?php <<< 'A'\r\nAB\nx A\n\tA;A".toList l after ∧
      (tokenize "<?php <<< 'A'\r\nAB\nx A\n\tA;A").EndsHeredoc t l after := by
  have h : (⟨.nowdoc, "<<< 'A'\r\nAB\nx A\n\tA", ⟨1, 6⟩, []⟩ : Token) ∈
      (tokenize "<?php <<< 'A'\r\nAB\nx A\n\tA;A").tokens := by decide +kernel
  exact ⟨_, rfl, h, rfl, tokenizeWith_endsHeredocs h (.inr rfl)⟩

end Lexer

end PhpSyntax
