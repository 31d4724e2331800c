import Mathlib.Data.Option.Basic
import PhpSyntax.Proofs.Printer.Runs

namespace PhpSyntax.Lexer

theorem stripChar?_eq_some {c : Char} {cs ds : List Char} :
    stripChar? c cs = some ds ↔ cs = c :: ds := by
  cases cs with
  | nil => simp [stripChar?]
  | cons d cs => by_cases h : d = c <;> simp [stripChar?, h]

structure HeaderLine where
  blanks : List Char
  quote : Option Char
  label : List Char
  lineEnd : List Char

namespace HeaderLine

structure Valid (l : HeaderLine) : Prop where
  blanks : ∀ c ∈ l.blanks, isBlank c = true
  quote : ∀ q, l.quote = some q → q = '\x27' ∨ q = '\x22'
  start : startsWith isNameStart l.label = true
  label : ∀ c ∈ l.label, isNameChar c = true
  lineEnd : l.lineEnd = ['\n'] ∨ l.lineEnd = ['\r', '\n']

def text (l : HeaderLine) : List Char :=
  l.blanks ++ (l.quote.toList ++ (l.label ++ (l.quote.toList ++ l.lineEnd)))

def header (l : HeaderLine) : HeredocHeader :=
  ⟨l.label, l.quote = some '\x27', 3 + l.text.length⟩

theorem exists_of_header {cs : List Char} {h : HeredocHeader} (hh : heredocHeader? cs = some h) :
    ∃ l : HeaderLine, l.Valid ∧ ∃ tail, cs = l.text ++ tail := by
  unfold heredocHeader? at hh
  have hcs : cs = cs.takeWhile isBlank ++ cs.dropWhile isBlank :=
    List.takeWhile_append_dropWhile.symm
  generalize cs.dropWhile isBlank = body at hh hcs
  have hblanks : ∀ c ∈ cs.takeWhile isBlank, isBlank c = true :=
    fun c hc => List.mem_takeWhile_imp hc
  generalize cs.takeWhile isBlank = blanks at hcs hblanks
  dsimp only at hh
  obtain ⟨quote, hquote, named, hnamed, hbody⟩ : ∃ quote,
      (body.head?.filter fun c => c = '\x27' || c = '\x22') = quote ∧ ∃ named,
      (if quote.isSome then body.tail else body) = named ∧ body = quote.toList ++ named := by
    refine ⟨_, rfl, _, rfl, ?_⟩
    cases body with
    | nil => rfl
    | cons c body =>
      cases hc : decide (c = '\x27') || decide (c = '\x22') <;> simp [Option.filter, hc]
  have hvalid : ∀ q, quote = some q → q = '\x27' ∨ q = '\x22' := by
    rintro q rfl
    simpa using (Option.filter_eq_some_iff.mp hquote).2
  rw [hquote, hnamed] at hh
  simp only [Option.bind_eq_bind, Option.bind_eq_some_iff] at hh
  obtain ⟨_, hguard, hh⟩ := hh
  have hstart : startsWith isNameStart named = true := by
    simpa [guard] using hguard
  obtain ⟨afterQuote, hafter, tail, htail⟩ : ∃ afterQuote,
      named.dropWhile isNameChar = quote.toList ++ afterQuote ∧ ∃ tail,
      stripChar? '\n' ((stripChar? '\r' afterQuote).getD afterQuote) = some tail := by
    cases quote with
    | none =>
      obtain ⟨_, ⟨⟩, hh⟩ := Option.bind_eq_some_iff.mp hh
      obtain ⟨tail, htail, -⟩ := Option.bind_eq_some_iff.mp hh
      exact ⟨_, rfl, tail, htail⟩
    | some q =>
      obtain ⟨afterQuote, hstrip, hh⟩ := Option.bind_eq_some_iff.mp hh
      obtain ⟨tail, htail, -⟩ := Option.bind_eq_some_iff.mp hh
      exact ⟨afterQuote, stripChar?_eq_some.mp hstrip, tail, htail⟩
  obtain ⟨lineEnd, hend, rfl⟩ : ∃ lineEnd, (lineEnd = ['\n'] ∨ lineEnd = ['\r', '\n']) ∧
      afterQuote = lineEnd ++ tail := by
    cases hreturn : stripChar? '\r' afterQuote with
    | none =>
      rw [hreturn] at htail
      exact ⟨_, .inl rfl, stripChar?_eq_some.mp htail⟩
    | some after =>
      rw [hreturn, Option.getD_some] at htail
      rw [stripChar?_eq_some.mp hreturn, stripChar?_eq_some.mp htail]
      exact ⟨_, .inr rfl, rfl⟩
  refine ⟨⟨blanks, quote, named.takeWhile isNameChar, lineEnd⟩, ⟨hblanks, hvalid, ?_,
    fun c hc => List.mem_takeWhile_imp hc, hend⟩, tail, ?_⟩
  · cases named with
    | nil => cases hstart
    | cons c named =>
      have hc : isNameStart c = true := hstart
      simp [isNameChar, hc, startsWith]
  · have hsplit : named = named.takeWhile isNameChar ++ (quote.toList ++ (lineEnd ++ tail)) := by
      rw [← hafter, List.takeWhile_append_dropWhile]
    simp only [hcs, hbody, text, List.append_assoc]
    rw [← hsplit]

theorem Valid.label_ne_nil {l : HeaderLine} (hl : l.Valid) : l.label ≠ [] :=
  ne_nil_of_startsWith hl.start

theorem Valid.newline_notMem {l : HeaderLine} (hl : l.Valid) : '\n' ∉ l.label :=
  fun hmem => absurd (hl.label _ hmem) (by decide)

/-- What follows a header line has no influence on it. -/
theorem header_eq {l : HeaderLine} (hl : l.Valid) (tail : List Char) :
    heredocHeader? (l.text ++ tail) = some l.header := by
  obtain ⟨blanks, quote, label, lineEnd⟩ := l
  have hne := hl.label_ne_nil
  obtain ⟨hblanks, hquote, hstart, hlabel, hend⟩ := hl
  dsimp only at hblanks hquote hstart hlabel hend hne
  obtain ⟨first, others, rfl⟩ := List.exists_cons_of_ne_nil hne
  have hfirst : ∀ {x : Char}, isNameStart x = false → first ≠ x := by
    rintro _ hx rfl
    exact Bool.false_ne_true (hx.symm.trans hstart)
  have hbody : startsWith isBlank
      (quote.toList ++ ((first :: others) ++ (quote.toList ++ (lineEnd ++ tail)))) = false := by
    cases quote with
    | none => simp [startsWith, isBlank, hfirst (x := ' ') rfl, hfirst (x := '\t') rfl]
    | some q => obtain rfl | rfl := hquote q rfl <;> rfl
  have hstop : startsWith isNameChar (quote.toList ++ (lineEnd ++ tail)) = false := by
    cases quote with
    | none => obtain rfl | rfl := hend <;> rfl
    | some q => obtain rfl | rfl := hquote q rfl <;> rfl
  have hfilter : ((quote.toList ++ ((first :: others) ++
      (quote.toList ++ (lineEnd ++ tail)))).head?.filter fun c => c = '\x27' || c = '\x22') =
      quote := by
    cases quote with
    | none => simp [Option.filter, hfirst (x := '\x27') rfl, hfirst (x := '\x22') rfl]
    | some q => obtain rfl | rfl := hquote q rfl <;> rfl
  have hnamed : (if quote.isSome = true then
      (quote.toList ++ ((first :: others) ++ (quote.toList ++ (lineEnd ++ tail)))).tail
      else quote.toList ++ ((first :: others) ++ (quote.toList ++ (lineEnd ++ tail)))) =
      (first :: others) ++ (quote.toList ++ (lineEnd ++ tail)) := by
    cases quote <;> rfl
  have htail : stripChar? '\n' ((stripChar? '\r' (lineEnd ++ tail)).getD (lineEnd ++ tail)) =
      some tail := by
    obtain rfl | rfl := hend <;> rfl
  simp only [heredocHeader?, text, List.append_assoc, dropWhile_append_of hblanks hbody, hfilter,
    hnamed, takeWhile_append_of hlabel hstop, dropWhile_append_of hlabel hstop]
  have hguard :
      startsWith isNameStart (first :: others ++ (quote.toList ++ (lineEnd ++ tail))) = true :=
    hstart
  rw [hguard]
  cases quote with
  | none =>
    simp [guard, htail, header, text]
    omega
  | some q =>
    have hquoted : stripChar? q (q :: (lineEnd ++ tail)) = some (lineEnd ++ tail) := by
      simp [stripChar?]
    simp [guard, hquoted, htail, header, text]
    omega

end HeaderLine

structure CastParts where
  before : List Char
  word : List Char
  after : List Char

namespace CastParts

structure Valid (l : CastParts) : Prop where
  before : ∀ c ∈ l.before, isBlank c = true
  word : ∀ c ∈ l.word, c.isAlpha = true
  after : ∀ c ∈ l.after, isBlank c = true
  type : castTypes.contains (String.ofList (l.word.map Char.toLower)) = true

def text (l : CastParts) : List Char :=
  l.before ++ (l.word ++ (l.after ++ [')']))

theorem exists_of_cast {cs : List Char} {n : Nat} (h : castLength? cs = some n) :
    ∃ l : CastParts, l.Valid ∧ ∃ tail, cs = l.text ++ tail := by
  unfold castLength? at h
  simp only [Option.bind_eq_bind, Option.bind_eq_some_iff] at h
  obtain ⟨tail, hstrip, _, hguard, -⟩ := h
  have htype : castTypes.contains (String.ofList
      (((cs.dropWhile isBlank).takeWhile Char.isAlpha).map Char.toLower)) = true := by
    simpa [guard] using hguard
  refine ⟨⟨cs.takeWhile isBlank, (cs.dropWhile isBlank).takeWhile Char.isAlpha,
    ((cs.dropWhile isBlank).dropWhile Char.isAlpha).takeWhile isBlank⟩,
    ⟨fun c hc => List.mem_takeWhile_imp hc, fun c hc => List.mem_takeWhile_imp hc,
      fun c hc => List.mem_takeWhile_imp hc, htype⟩, tail, ?_⟩
  simp only [text, List.append_assoc, List.singleton_append]
  rw [← stripChar?_eq_some.mp hstrip, List.takeWhile_append_dropWhile,
    List.takeWhile_append_dropWhile, List.takeWhile_append_dropWhile]

theorem Valid.word_ne_nil {l : CastParts} (hl : l.Valid) : l.word ≠ [] := by
  intro h
  have := hl.type
  rw [h] at this
  revert this
  decide

/-- What follows a cast has no influence on it. -/
theorem castLength?_eq {l : CastParts} (hl : l.Valid) (tail : List Char) :
    castLength? (l.text ++ tail) = some l.text.length := by
  have hblank : ∀ c, c.isAlpha = true → isBlank c = false := by
    intro c hc
    rw [Bool.eq_false_iff]
    intro hb
    simp only [isBlank, Bool.or_eq_true, decide_eq_true_eq] at hb
    obtain rfl | rfl := hb <;> cases hc
  have hword : startsWith isBlank (l.word ++ (l.after ++ ([')'] ++ tail))) = false := by
    rw [startsWith_append hl.word_ne_nil]
    obtain ⟨first, others, hw⟩ := List.exists_cons_of_ne_nil hl.word_ne_nil
    rw [hw]
    exact hblank first (hl.word first (by rw [hw]; exact List.mem_cons_self))
  have hafter : startsWith Char.isAlpha (l.after ++ ([')'] ++ tail)) = false := by
    cases hl' : l.after with
    | nil => rfl
    | cons c cs =>
      rw [← Bool.not_eq_true]
      intro hc
      have := hl.after c (by rw [hl']; exact List.mem_cons_self)
      rw [hblank c hc] at this
      cases this
  have hclose : startsWith isBlank ([')'] ++ tail) = false := rfl
  simp only [castLength?, text, List.append_assoc, dropWhile_append_of hl.before hword,
    dropWhile_append_of hl.word hafter, takeWhile_append_of hl.word hafter,
    dropWhile_append_of hl.after hclose, hl.type]
  simp [stripChar?, guard]
  omega

end CastParts

end PhpSyntax.Lexer
