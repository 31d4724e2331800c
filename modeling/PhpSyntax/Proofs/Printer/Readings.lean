import PhpSyntax.Proofs.Printer.Headers
import PhpSyntax.Proofs.Printer.UpToGap

namespace PhpSyntax.Lexer

/-- If a reading takes `n` characters and misses nothing, another one is the same. -/
def Reading.Keeps (n : Nat) (r r' : Reading) : Prop :=
  r.more = n → r.fault = none → r' = r

namespace Reading.Keeps

variable {n : Nat} {r s r' s' : Reading} {p p' : Prop} [Decidable p] [Decidable p']

theorem refl : r.Keeps n r :=
  fun _ _ => rfl

theorem ite (hp : p' ↔ p) (hr : p → r.Keeps n r') (hs : ¬ p → s.Keeps n s') :
    (if p then r else s).Keeps n (if p' then r' else s') := by
  by_cases h : p
  · rw [if_pos h, if_pos (hp.mpr h)]
    exact hr h
  · rw [if_neg h, if_neg (mt hp.mp h)]
    exact hs h

/-- The condition of a reading may hold because of the characters that it takes. -/
theorem iteOf (hp : p → r.more = n → p') (hr : p → r.Keeps n r') (hp' : p' → p)
    (hs : ¬ p → s.Keeps n s') : (if p then r else s).Keeps n (if p' then r' else s') := by
  by_cases h : p
  · rw [if_pos h]
    intro hmore
    rw [if_pos (hp h hmore)]
    exact hr h hmore
  · rw [if_neg h, if_neg (mt hp' h)]
    exact hs h

end Reading.Keeps

variable {rest rest' body : List Char}

/-- What readers of code see at the start of `rest'`, they also see at the start of `rest`. -/
structure ShowsLess (rest rest' : List Char) : Prop where
  next : ∀ x ∈ ['>', '[', '/', '*'], rest'.head? = some x → rest.head? = some x
  nameStart : startsWith isNameStart rest' = true → startsWith isNameStart rest = true
  nameChar : startsWith isNameChar rest' = true → startsWith isNameChar rest = true
  digit : startsWith Char.isDigit rest' = true → startsWith Char.isDigit rest = true
  name : nameLength rest = 0 → nameLength rest' = 0
  lineComment : lineCommentLength rest = 0 → lineCommentLength rest' = 0

/-- The condition of a reading looks at the next character, which the reading then takes. -/
theorem Reading.Keeps.iteNext {c x y : Char} {r s r' s' : Reading}
    (hnext : rest'.head? = some y → rest.head? = some y)
    (hmore : c = x → (body ++ rest).head? = some y → r.more ≠ 0)
    (hr : c = x → r.Keeps body.length r') (hs : s.Keeps body.length s') :
    (if c = x && (body ++ rest).head? = some y then r else s).Keeps body.length
      (if c = x && (body ++ rest').head? = some y then r' else s') := by
  simp only [Bool.and_eq_true, decide_eq_true_eq]
  refine .iteOf (fun ⟨hx, hy⟩ hlength => ⟨hx, ?_⟩) (fun hc => hr hc.1)
    (And.imp id (head?_append_mono hnext body)) fun _ => hs
  have hne : body ≠ [] := by
    rintro rfl
    exact hmore hx hy hlength
  rwa [head?_append_of hne] at hy ⊢

theorem readLineComment_keeps (h : ShowsLess rest rest') :
    (readLineComment (body ++ rest)).Keeps body.length (readLineComment (body ++ rest')) := by
  intro (hmore : lineCommentLength (body ++ rest) = body.length) _
  rw [readLineComment, readLineComment,
    lineCommentLength_local (h.next '>' (by decide)) h.lineComment hmore, hmore]

theorem readBlockComment_keeps (rest' : List Char) :
    (readBlockComment (body ++ rest)).Keeps body.length (readBlockComment (body ++ rest')) := by
  intro hmore hfault
  cases body with
  | nil => cases hmore
  | cons c body =>
    have hclosed : (blockCommentRun (body ++ rest)).2 = true := by
      by_contra hc
      simp [readBlockComment, hc] at hfault
    have hrun : blockCommentRun (body ++ rest) = (body.length, true) :=
      Prod.ext (Nat.succ.inj hmore) hclosed
    have hrun' := blockCommentRun_local rest' hrun
    simp only [readBlockComment, List.cons_append, List.tail_cons, hrun, hrun']

theorem readQuoted_keeps (close : Char) (interpolates : Bool) (kind expanded : TokenKind)
    (rest' : List Char) :
    (readQuoted close interpolates kind expanded (body ++ rest)).Keeps body.length
      (readQuoted close interpolates kind expanded (body ++ rest')) := by
  intro hmore hfault
  have hclosed : (quotedRun close interpolates .plain (body ++ rest)).closed = true := by
    by_contra hc
    simp [readQuoted, hc] at hfault
  simp only [readQuoted] at hmore
  rw [readQuoted, readQuoted, quotedRun_local rest' hmore hclosed]

section Heredocs

variable {l : HeaderLine}

theorem readHeredoc_eq (tail : List Char) : readHeredoc l.header ("<<".toList ++ l.text ++ tail) =
    ⟨.token (if l.header.isNowdoc then .nowdoc else .heredoc),
      ("<<".toList ++ l.text).length + (heredocRun l.label true tail).1,
      if (heredocRun l.label true tail).2 then none
      else some (.unterminatedHeredoc (String.ofList l.label))⟩ := by
  have hlength : l.header.length - 1 = ("<<".toList ++ l.text).length := by
    simp [HeaderLine.header]
    omega
  have hdrop : ("<<".toList ++ l.text ++ tail).drop (l.header.length - 1) = tail := by
    rw [hlength, List.drop_left]
  rw [← hlength, readHeredoc, hdrop]
  rfl

/-- The header belongs to the heredoc. -/
theorem heredoc_body {tail : List Char} (h : body ++ rest = "<<".toList ++ l.text ++ tail)
    (hmore : (readHeredoc l.header (body ++ rest)).more = body.length) :
    ∃ after, body = "<<".toList ++ l.text ++ after ∧ tail = after ++ rest := by
  obtain ⟨excess, htext, hrest⟩ | hafter := List.append_eq_append_iff.mp h
  · have hexcess := congrArg List.length htext
    rw [h, readHeredoc_eq] at hmore
    simp only [List.length_append] at hexcess hmore
    obtain rfl : excess = [] := List.length_eq_zero_iff.mp (by omega)
    exact ⟨[], by simpa using htext.symm, by simpa using hrest.symm⟩
  · exact hafter

theorem readHeredoc_keeps (hl : l.Valid)
    (hname : startsWith isNameChar rest' = true → startsWith isNameChar rest = true)
    (after : List Char) :
    (readHeredoc l.header ("<<".toList ++ l.text ++ (after ++ rest))).Keeps
      ("<<".toList ++ l.text ++ after).length
      (readHeredoc l.header ("<<".toList ++ l.text ++ (after ++ rest'))) := by
  intro hmore hfault
  rw [readHeredoc_eq] at hmore hfault
  have hclosed : (heredocRun l.label true (after ++ rest)).2 = true := by
    by_contra hc
    simp [hc] at hfault
  have hrun : heredocRun l.label true (after ++ rest) = (after.length, true) := by
    rw [@List.length_append _ _ after] at hmore
    exact Prod.ext (Nat.add_left_cancel hmore) hclosed
  have hrun' := heredocRun_local hl.start hl.newline_notMem hname hrun
  rw [readHeredoc_eq, readHeredoc_eq, hrun, hrun']

def heredocAt? (c : Char) (cs : List Char) : Option HeredocHeader :=
  if c = '<' && "<<".toList.isPrefixOf cs then heredocHeader? (cs.drop 2) else none

theorem heredocAt?_eq_some {c : Char} {cs : List Char} {header : HeredocHeader} :
    heredocAt? c cs = some header ↔ c = '<' ∧ ∃ l : HeaderLine, l.Valid ∧ l.header = header ∧
      ∃ tail, cs = "<<".toList ++ l.text ++ tail := by
  constructor
  · intro h
    unfold heredocAt? at h
    split at h
    · next hc =>
      obtain ⟨hangle, hprefix⟩ := Bool.and_eq_true_iff.mp hc
      obtain ⟨start, rfl⟩ := List.isPrefixOf_iff_prefix.mp hprefix
      rw [show ("<<".toList ++ start).drop 2 = start from rfl] at h
      obtain ⟨l, hl, tail, rfl⟩ := HeaderLine.exists_of_header h
      rw [HeaderLine.header_eq hl] at h
      exact ⟨of_decide_eq_true hangle, l, hl, Option.some.inj h, tail, by
        rw [List.append_assoc]⟩
    · cases h
  · rintro ⟨rfl, l, hl, rfl, tail, rfl⟩
    rw [List.append_assoc]
    exact HeaderLine.header_eq hl tail

theorem heredocAt?_keeps {c : Char} {header : HeredocHeader}
    (hname : startsWith isNameChar rest' = true → startsWith isNameChar rest = true)
    (hh : heredocAt? c (body ++ rest) = some header)
    (hmore : (readHeredoc header (body ++ rest)).more = body.length)
    (hfault : (readHeredoc header (body ++ rest)).fault = none) :
    heredocAt? c (body ++ rest') = some header ∧
      readHeredoc header (body ++ rest') = readHeredoc header (body ++ rest) := by
  obtain ⟨hc, l, hl, rfl, tail, htail⟩ := heredocAt?_eq_some.mp hh
  obtain ⟨after, rfl, rfl⟩ := heredoc_body htail hmore
  rw [List.append_assoc _ after] at hmore hfault ⊢
  rw [List.append_assoc _ after]
  exact ⟨heredocAt?_eq_some.mpr ⟨hc, l, hl, rfl, after ++ rest', rfl⟩,
    readHeredoc_keeps hl hname after hmore hfault⟩

end Heredocs

theorem cast_keeps (rest' : List Char) (h : castLength? (body ++ rest) = some body.length) :
    castLength? (body ++ rest') = some body.length := by
  obtain ⟨l, hl, tail, htext⟩ := CastParts.exists_of_cast h
  rw [htext, CastParts.castLength?_eq hl, Option.some_inj] at h
  obtain ⟨rfl, -⟩ := List.append_inj htext h.symm
  exact CastParts.castLength?_eq hl rest'

/-- The length of a cast that starts with `c`, which `cs` follows, without that character. -/
def castAt? (c : Char) (cs : List Char) : Option Nat :=
  if c = '(' then castLength? cs else none

def readBracket (c : Char) (cs : List Char) : Reading :=
  match heredocAt? c cs with
  | some header => readHeredoc header cs
  | none =>
    match castAt? c cs with
    | some more => .sound (.token .cast) more
    | none => readPunctuator c cs

theorem readBracket_keeps {c : Char}
    (hname : startsWith isNameChar rest' = true → startsWith isNameChar rest = true)
    (hheader : heredocAt? c (body ++ rest) = none → heredocAt? c (body ++ rest') = none)
    (hcast : castAt? c (body ++ rest) = none → castAt? c (body ++ rest') = none)
    (hpunctuator : (readPunctuator c (body ++ rest)).Keeps body.length
      (readPunctuator c (body ++ rest'))) :
    (readBracket c (body ++ rest)).Keeps body.length (readBracket c (body ++ rest')) := by
  unfold readBracket
  cases hh : heredocAt? c (body ++ rest) with
  | some header =>
    intro hmore hfault
    obtain ⟨hh', hreading⟩ := heredocAt?_keeps hname hh hmore hfault
    rw [hh']
    exact hreading
  | none =>
    rw [hheader hh]
    dsimp only
    cases hmore? : castAt? c (body ++ rest) with
    | some more =>
      intro (hmore : more = body.length) _
      subst hmore
      unfold castAt? at hmore? ⊢
      split at hmore?
      · next hc => rw [if_pos hc, cast_keeps rest' hmore?]
      · cases hmore?
    | none =>
      rw [hcast hmore?]
      exact hpunctuator

/-- A reading of code depends on the characters that it takes and on what can be seen next, if
neither a header nor a cast appears. -/
theorem readCode_local {c : Char} (h : ShowsLess rest rest')
    (hnumber : (numberLength c (body ++ rest)).2 = body.length →
      numberLength c (body ++ rest') = numberLength c (body ++ rest))
    (hheader : heredocAt? c (body ++ rest) = none → heredocAt? c (body ++ rest') = none)
    (hcast : castAt? c (body ++ rest) = none → castAt? c (body ++ rest') = none)
    (hpunctuator : (readPunctuator c (body ++ rest)).Keeps body.length
      (readPunctuator c (body ++ rest'))) :
    (readCode c (body ++ rest)).Keeps body.length (readCode c (body ++ rest')) := by
  -- a start that is part of the piece stays where it is, and none appears elsewhere
  have hkept : ∀ {p}, startsWith p (body ++ rest) = true → body ≠ [] →
      startsWith p (body ++ rest') = true := by
    intro p hs hb
    rwa [startsWith_append hb] at hs ⊢
  have hname := startsWith_append_mono h.nameStart body
  have hdigit := startsWith_append_mono h.digit body
  unfold readCode
  dsimp only
  refine .ite .rfl (fun _ => .refl) fun _ => ?_
  refine .iteNext (h.next '>' (by decide)) (fun _ _ => Nat.one_ne_zero) (fun _ => .refl) ?_
  refine .iteNext (h.next '[' (by decide)) ?_ (fun _ => hpunctuator) ?_
  · rintro rfl hnext
    obtain ⟨after, hafter⟩ := List.head?_eq_some_iff.mp hnext
    rw [hafter]
    exact Nat.one_ne_zero
  refine .ite .rfl (fun _ => readLineComment_keeps h) fun _ => ?_
  refine .iteNext (h.next '/' (by decide)) ?_ (fun _ => readLineComment_keeps h) ?_
  · intro _ hnext
    obtain ⟨after, hafter⟩ := List.head?_eq_some_iff.mp hnext
    rw [hafter]
    exact Nat.succ_ne_zero _
  refine .iteNext (h.next '*' (by decide)) (fun _ _ => Nat.succ_ne_zero _)
    (fun _ => readBlockComment_keeps rest') ?_
  refine .iteOf ?_ (fun _ => ?_) ?_ fun _ => ?_
  · simp only [Bool.and_eq_true, Reading.sound]
    exact fun hp hmore => hp.imp id fun hs =>
      hkept hs fun hb => runLength_ne_zero_of_name hs (by rw [hmore, hb]; rfl)
  · intro (hmore : runLength isNameChar (body ++ rest) = body.length) _
    rw [runLength_local h.nameChar hmore, hmore]
  · simp only [Bool.and_eq_true]
    exact And.imp id hname
  refine .iteOf ?_ (fun _ => ?_) ?_ fun _ => ?_
  · simp only [Bool.or_eq_true, Bool.and_eq_true, Reading.sound]
    exact fun hp hmore => hp.imp id (And.imp id fun hs =>
      hkept hs fun hb => nameLength_ne_zero_of_name hs (by rw [hmore, hb]; rfl))
  · intro (hmore : nameLength (body ++ rest) = body.length) _
    rw [nameLength_local h.name hmore, hmore]
  · simp only [Bool.or_eq_true, Bool.and_eq_true]
    exact Or.imp id (And.imp id hname)
  refine .iteOf ?_ (fun _ => ?_) ?_ fun _ => ?_
  · simp only [Bool.or_eq_true, Bool.and_eq_true, decide_eq_true_eq]
    exact fun hp (hmore : (numberLength c (body ++ rest)).2 = body.length) =>
      hp.imp id fun ⟨hc, hs⟩ => ⟨hc, hkept hs fun hb =>
        numberLength_ne_zero hs (by rw [← hc, hmore, hb]; rfl)⟩
  · intro (hmore : (numberLength c (body ++ rest)).2 = body.length) _
    rw [hnumber hmore]
  · simp only [Bool.or_eq_true, Bool.and_eq_true]
    exact Or.imp id (And.imp id hdigit)
  refine .ite .rfl (fun _ => readQuoted_keeps c _ _ _ rest') fun _ => ?_
  refine .ite .rfl (fun _ => readQuoted_keeps c _ _ _ rest') fun _ => ?_
  refine .ite .rfl (fun _ => readQuoted_keeps c _ _ _ rest') fun _ => ?_
  exact readBracket_keeps h.nameChar hheader hcast hpunctuator

namespace UpToGap

theorem nameLength_eq_zero (hg : UpToGap rest rest') (h : nameLength rest = 0) :
    nameLength rest' = 0 := by
  cases hg with
  | nil => rfl
  | @same cs ds c hg =>
    simp only [nameLength] at h ⊢
    split at h
    · cases h
    · next hn =>
      refine if_neg fun hp => hn ?_
      simp only [Bool.or_eq_true, Bool.and_eq_true] at hp ⊢
      exact hp.imp id (And.imp id (hg.startsWith_of (by decide) (by decide)))
  | gap ha hb => obtain rfl | ⟨rfl, -⟩ := hb <;> rfl

theorem lineCommentLength_eq_zero (hg : UpToGap rest rest') (h : lineCommentLength rest = 0) :
    lineCommentLength rest' = 0 := by
  cases hg with
  | nil => rfl
  | same c hg =>
    simp only [lineCommentLength, hg.head?_iff (x := '>') rfl] at h ⊢
    split at h
    · next hc => exact if_pos hc
    · cases h
  | @gap a b cs ds ha hb =>
    have hq := ne_of_whiteSpace (x := '?') ha rfl
    obtain rfl : a = '\n' := by simpa [lineCommentLength, hq] using h
    obtain rfl : b = '\n' := by simpa using hb
    rfl

theorem showsLess (hg : UpToGap rest rest') : ShowsLess rest rest' where
  next x hx := by
    have hvisible : Text.isWhiteSpace x = false := by
      simp only [List.mem_cons, List.not_mem_nil, or_false] at hx
      obtain rfl | rfl | rfl | rfl := hx <;> decide
    exact (hg.head?_iff hvisible).mp
  nameStart := hg.startsWith_of rfl rfl
  nameChar := hg.startsWith_of rfl rfl
  digit := hg.startsWith_of rfl rfl
  name := hg.nameLength_eq_zero
  lineComment := hg.lineCommentLength_eq_zero

end UpToGap

/-- A reading of code depends on the characters that it takes and on the next ones up to a gap,
except for a header or a cast that other gaps would make. -/
theorem readCode_keeps {c : Char} (hg : UpToGap rest rest')
    (hheader : c = '<' → "<<".toList.isPrefixOf (body ++ rest) = true →
      heredocHeader? ((body ++ rest).drop 2) = none →
      heredocHeader? ((body ++ rest').drop 2) = none)
    (hcast : c = '(' → castLength? (body ++ rest) = none → castLength? (body ++ rest') = none) :
    (readCode c (body ++ rest)).Keeps body.length (readCode c (body ++ rest')) := by
  have hall := hg.append body
  have hangle : "<<".toList.isPrefixOf (body ++ rest') = "<<".toList.isPrefixOf (body ++ rest) :=
    (hall.drop_isPrefixOf (by decide)).1
  refine readCode_local hg.showsLess (fun _ => hall.numberLength_eq c) (fun hh => ?_)
    (fun hh => ?_) fun _ _ => ?_
  · unfold heredocAt? at hh ⊢
    rw [hangle]
    split
    · next hc =>
      rw [if_pos hc] at hh
      obtain ⟨hless, hprefix⟩ := Bool.and_eq_true_iff.mp hc
      exact hheader (of_decide_eq_true hless) hprefix hh
    · rfl
  · unfold castAt? at hh ⊢
    split
    · next hc =>
      rw [if_pos hc] at hh
      exact hcast hc hh
    · rfl
  · rw [readPunctuator, readPunctuator, (UpToGap.same c hall).longestAt?_eq]

theorem htmlLength_local {options : LexerOptions} (hg : UpToGap rest rest')
    (h : htmlLength options (body ++ rest) = body.length) :
    htmlLength options (body ++ rest') = body.length := by
  induction body with
  | nil =>
    have htag := hg.openTagAt?_eq options
    cases hg with
    | nil => rfl
    | same | gap =>
      simp only [List.nil_append, htmlLength, htag] at h ⊢
      split at h
      · next hc => exact if_pos hc
      · cases h
  | cons c body ih =>
    have htag := (hg.append (c :: body)).openTagAt?_eq options
    simp only [List.cons_append, htmlLength, List.length_cons] at htag h ⊢
    rw [htag]
    split at h
    · cases h
    · next hc => rw [if_neg hc, ih (Nat.succ.inj h)]

/-- Outside of code a reading depends on the characters that it takes and on the next ones up to a
gap. -/
theorem readHtml_keeps {c : Char} (options : LexerOptions) (hg : UpToGap rest rest') :
    (readHtml options c (body ++ rest)).Keeps body.length
      (readHtml options c (body ++ rest')) := by
  unfold readHtml
  rw [(UpToGap.same c (hg.append body)).openTagAt?_eq options]
  split
  · exact .refl
  · intro (hmore : htmlLength options (body ++ rest) = body.length) _
    rw [htmlLength_local hg hmore, hmore]

end PhpSyntax.Lexer
