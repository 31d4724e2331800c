import PhpSyntax.Proofs.Lexer.SelfDelimiting
import PhpSyntax.Proofs.Pattern.Stripped

/-!
Texts between quotes. The end of a string is found by skipping each backslash with the character
after it, what the string stands for is found escape by escape, and escapes may be longer or none.
Still no escape reaches over the end, and nothing in front of the end is taken for it.
-/

namespace PhpSyntax

namespace Literal.Quote

def kind : Quote → TokenKind
  | single => .singleQuotedString
  | double => .doubleQuotedString

theorem kind_quote (quote : Quote) : quote.kind.quote? = some quote.mark := by
  cases quote <;> rfl

theorem kind_isCode (quote : Quote) : quote.kind.isCode = true := by
  cases quote <;> rfl

def enclose (quote : Quote) (text : String) : String :=
  String.singleton quote.mark ++ text ++ String.singleton quote.mark

theorem toList_enclose (quote : Quote) (text : String) :
    (quote.enclose text).toList = quote.mark :: (text.toList ++ [quote.mark]) := by
  simp [enclose]

end Literal.Quote

namespace Lexer

open Literal (Quote)

def startsExpansion (cs : List Char) : Bool :=
  startsWith isNameStart cs || cs.head? = some '\x7b'

/-- A text between quotes: pairs of a backslash and any character, and other characters of which
none ends the text or, in double quotes, interpolates. -/
inductive EnclosedBy (quote : Quote) : List Char → Prop
  | nil : EnclosedBy quote []
  | pair (c : Char) {cs : List Char} (h : EnclosedBy quote cs) : EnclosedBy quote ('\\' :: c :: cs)
  | plain {c : Char} {cs : List Char} (hslash : c ≠ '\\') (hmark : c ≠ quote.mark)
    (hdollar : quote = .double → c = '$' → startsExpansion cs = false) (h : EnclosedBy quote cs) :
    EnclosedBy quote (c :: cs)

def QuotedState.pending : QuotedState → List Char
  | escaped => ['\\']
  | plain | braced _ => []

theorem QuotedState.next_plain {quote : Quote} {c : Char} {cs : List Char} (hc : c ≠ '\\')
    (h : quote = .double → (plain.next true c cs).2 = false) :
    plain.next (quote = .double) c cs = (plain, false) ∧
      (quote = .double → c = '$' → startsExpansion cs = false) := by
  cases quote with
  | single => exact ⟨by simp [next, hc], nofun⟩
  | double =>
    have hnone := h rfl
    simp only [next, if_neg hc, Bool.true_and, decide_true] at hnone ⊢
    by_cases hname : (decide (c = '$') && startsWith isNameStart cs) = true
    · rw [if_pos hname] at hnone
      cases hnone
    by_cases hbrace : (decide (c = '$') && decide (cs.head? = some '\x7b')) = true
    · rw [if_neg hname, if_pos hbrace] at hnone
      cases hnone
    by_cases hopen : (decide (c = '\x7b') && decide (cs.head? = some '$')) = true
    · rw [if_neg hname, if_neg hbrace, if_pos hopen] at hnone
      cases hnone
    rw [if_neg hname, if_neg hbrace, if_neg hopen]
    refine ⟨rfl, fun _ hdollar => ?_⟩
    subst hdollar
    simpa [startsExpansion] using And.intro hname hbrace

theorem startsExpansion_of_prefix {body cs : List Char} (h : body <+: cs)
    (hnone : startsExpansion cs = false) : startsExpansion body = false := by
  cases body with
  | nil => rfl
  | cons c body =>
    obtain ⟨rest, rfl⟩ := h
    exact hnone

/-- What stands before the quote that ends a text. -/
theorem quotedRun_body {quote : Quote} {state : QuotedState} {cs : List Char}
    (hstate : state = .plain ∨ state = .escaped)
    (hclosed : (quotedRun quote.mark (quote = .double) state cs).closed = true)
    (hplain : quote = .double →
      (quotedRun quote.mark (quote = .double) state cs).expandable = false) :
    ∃ body, cs.take (quotedRun quote.mark (quote = .double) state cs).length =
        body ++ [quote.mark] ∧
      EnclosedBy quote (state.pending ++ body) := by
  -- braces are open only behind an interpolation, so the two states of `hstate` are all there are
  induction cs generalizing state with
  | nil => cases hclosed
  | cons c cs ih =>
    rw [quotedRun] at hclosed hplain ⊢
    by_cases hc : (decide (state = .plain) && decide (c = quote.mark)) = true
    · rw [if_pos hc]
      rw [Bool.and_eq_true, decide_eq_true_eq, decide_eq_true_eq] at hc
      obtain ⟨rfl, rfl⟩ := hc
      exact ⟨[], rfl, .nil⟩
    rw [if_neg hc] at hclosed hplain ⊢
    simp only [List.take_succ_cons] at hclosed hplain ⊢
    obtain rfl | rfl := hstate
    · by_cases hslash : c = '\\'
      · subst hslash
        obtain ⟨body, hbody, henclosed⟩ := @ih .escaped (.inr rfl) hclosed hplain
        exact ⟨'\\' :: body, congrArg _ hbody, henclosed⟩
      · have hmark : c ≠ quote.mark := by simpa using hc
        have hstarts : quote = .double → (QuotedState.plain.next true c cs).2 = false := by
          rintro rfl
          exact (Bool.or_eq_false_iff.mp (hplain rfl)).1
        obtain ⟨hnext, hdollar⟩ := QuotedState.next_plain hslash hstarts
        rw [hnext] at hclosed hplain ⊢
        obtain ⟨body, hbody, henclosed⟩ := @ih .plain (.inl rfl) hclosed hplain
        refine ⟨c :: body, congrArg _ hbody, .plain hslash hmark (fun hdouble hc => ?_) henclosed⟩
        have hprefix : body <+: cs :=
          (List.prefix_append body [quote.mark]).trans (hbody ▸ List.take_prefix _ cs)
        exact startsExpansion_of_prefix hprefix (hdollar hdouble hc)
    · obtain ⟨body, hbody, henclosed⟩ := @ih .plain (.inl rfl) hclosed hplain
      exact ⟨c :: body, congrArg _ hbody, .pair c henclosed⟩

theorem readCode_mark (quote : Quote) (cs : List Char) :
    ∃ expanded, (quote = .double → expanded ≠ quote.kind) ∧
      readCode quote.mark cs =
        readQuoted quote.mark (quote = .double) quote.kind expanded cs := by
  cases quote with
  | single => exact ⟨.singleQuotedString, nofun, rfl⟩
  | double => exact ⟨.expandableString, fun _ => by decide, rfl⟩

/-- A string in code is read from its quote on, and it does not interpolate. -/
theorem readCode_enclosed {quote : Quote} {c : Char} {cs : List Char} {more : Nat}
    (h : readCode c cs = .sound (.token quote.kind) more) :
    c = quote.mark ∧ ∃ body, cs.take more = body ++ [quote.mark] ∧ EnclosedBy quote body := by
  have hclosed := (readCode_ends c cs).closed
  rw [h] at hclosed
  obtain ⟨_, hends⟩ := hclosed nofun quote.mark quote.kind_quote
  obtain ⟨rfl, -⟩ := List.cons.inj hends
  obtain ⟨expanded, hexpanded, hreading⟩ := readCode_mark quote cs
  obtain ⟨hkind, rfl, hfault⟩ := Reading.mk.inj (hreading.symm.trans h)
  refine ⟨rfl, quotedRun_body (.inl rfl) ?_ fun hdouble => ?_⟩
  · by_contra hopen
    rw [if_neg hopen] at hfault
    cases hfault
  · refine Bool.eq_false_iff.mpr fun hexpandable => hexpanded hdouble ?_
    rw [if_pos hexpandable] at hkind
    exact Piece.token.inj hkind

theorem EnclosedBy.drop {quote : Quote} {cs : List Char} (h : EnclosedBy quote cs) {n : Nat}
    (hn : ∀ c ∈ cs.take n, c ≠ '\\') : EnclosedBy quote (cs.drop n) := by
  induction n generalizing cs with
  | zero => exact h
  | succ n ih =>
    cases h with
    | nil => exact .nil
    | pair c h => exact absurd rfl (hn '\\' List.mem_cons_self)
    | plain _ _ _ h => exact ih h fun c hc => hn c (List.mem_cons_of_mem _ hc)

end Lexer

namespace Literal

theorem ne_slash_of_digit {base : Nat} {c : Char} (h : Text.isDigitBelow base c = true) :
    c ≠ '\\' := by
  rintro rfl
  cases h

theorem take_digits (base k : Nat) (cs : List Char) :
    cs.take ((cs.take k).takeWhile (Text.isDigitBelow base)).length =
      (cs.take k).takeWhile (Text.isDigitBelow base) :=
  (List.prefix_iff_eq_take.mp ((List.takeWhile_prefix _).trans (List.take_prefix k cs))).symm

theorem ne_slash_of_mem_digits {base : Nat} {cs : List Char} :
    ∀ c ∈ cs.takeWhile (Text.isDigitBelow base), c ≠ '\\' :=
  fun _ hc => ne_slash_of_digit (List.mem_takeWhile_imp hc)

theorem hexEscape_slash {cs : List Char} {d : Char} {n : Nat} (h : hexEscape? cs = some (d, n)) :
    ∀ c ∈ cs.take n, c ≠ '\\' := by
  obtain ⟨_, -, ⟨⟩⟩ := Option.bind_eq_some_iff.mp h
  rw [take_digits]
  exact ne_slash_of_mem_digits

theorem octalEscape_slash {cs : List Char} {d : Char} {n : Nat}
    (h : octalEscape? cs = some (d, n)) : 0 < n ∧ ∀ c ∈ cs.take n, c ≠ '\\' := by
  obtain ⟨value, hvalue, h⟩ := Option.bind_eq_some_iff.mp h
  obtain ⟨_, -, ⟨⟩⟩ := Option.bind_eq_some_iff.mp h
  constructor
  · rw [List.length_pos_iff]
    intro hnil
    rw [hnil] at hvalue
    cases hvalue
  · rw [take_digits]
    exact ne_slash_of_mem_digits

theorem bracedEscape_slash {cs : List Char} {d : Char} {n : Nat}
    (h : bracedEscape? cs = some (d, n)) : ∀ c ∈ cs.take n, c ≠ '\\' := by
  unfold bracedEscape? at h
  split at h
  · next cs =>
    obtain ⟨⟨⟩, hguard, h⟩ := Option.bind_eq_some_iff.mp h
    obtain ⟨_, -, ⟨⟩⟩ := Option.bind_eq_some_iff.mp h
    obtain ⟨rest, hclose⟩ := List.head?_eq_some_iff.mp ((Option.guard_eq_some' ()).mp hguard)
    have hdigits : cs.take (cs.takeWhile (Text.isDigitBelow 16)).length =
        cs.takeWhile (Text.isDigitBelow 16) :=
      (List.prefix_iff_eq_take.mp (List.takeWhile_prefix _)).symm
    rw [List.take_succ_cons, List.take_add, hdigits, hclose, List.forall_mem_cons,
      List.forall_mem_append]
    exact ⟨by decide, ne_slash_of_mem_digits, by simp⟩
  · cases h

/-- Only the first character of an escape can be a backslash. -/
theorem escape_slash {x : Char} {cs : List Char} {d : Char} {n : Nat}
    (h : escape? (x :: cs) = some (d, n)) :
    ∃ k, n = k + 1 ∧ ∀ c ∈ cs.take k, c ≠ '\\' := by
  rw [escape?] at h
  split at h
  · cases h
    exact ⟨0, rfl, by simp⟩
  split at h
  · obtain ⟨⟨e, m⟩, hm, ⟨⟩⟩ := Option.map_eq_some_iff.mp h
    exact ⟨m, rfl, hexEscape_slash hm⟩
  split at h
  · obtain ⟨⟨e, m⟩, hm, ⟨⟩⟩ := Option.map_eq_some_iff.mp h
    exact ⟨m, rfl, bracedEscape_slash hm⟩
  · obtain ⟨hpos, hslash⟩ := octalEscape_slash h
    refine ⟨n - 1, (Nat.sub_add_cancel hpos).symm, fun c hc => hslash c ?_⟩
    rw [← Nat.sub_add_cancel hpos, List.take_succ_cons]
    exact List.mem_cons_of_mem _ hc

end Literal

namespace Pattern

open Lexer
open Literal (Quote)

/-- The characters of a text follow each other without a gap, and they are what the text stands for
between quotes. -/
theorem decode_tiles (quote : Quote) (text : String) :
    Tiled 0 (decode quote text) text.toList.length ∧
      Literal.textValue? (quote.enclose text) =
        some (String.ofList ((decode quote text).map (·.char))) := by
  constructor
  · have htiled := decodeFrom_tiled quote 0 text.toList
    rwa [Nat.zero_add] at htiled
  · rw [textValue_eq (quote.toList_enclose text), decode, decodeFrom_chars]

variable {quote : Quote} {text : List Char}

/-- A backslash in a text between quotes stands for itself, and then in front of a character that
needs none, or for an escape that holds no other backslash but the next character. -/
theorem decodeHead_pair (quote : Quote) (x : Char) (cs : List Char) :
    decodeHead quote '\\' (x :: cs) = ('\\', 1) ∧ x ≠ '\\' ∧ x ≠ quote.mark ∧
        (quote = .double → x ≠ '$') ∨
      ∃ d k, decodeHead quote '\\' (x :: cs) = (d, k + 2) ∧ ∀ c ∈ cs.take k, c ≠ '\\' := by
  cases quote with
  | single =>
    by_cases hslash : x = '\\'
    · exact .inr ⟨'\\', 0, by simp [decodeHead, hslash], by simp⟩
    by_cases hmark : x = '\x27'
    · exact .inr ⟨'\x27', 0, by simp [decodeHead, hmark], by simp⟩
    · exact .inl ⟨by simp [decodeHead, hslash, hmark], hslash, hmark, fun h => by cases h⟩
  | double =>
    cases h : Literal.escape? (x :: cs) with
    | some found =>
      obtain ⟨d, n⟩ := found
      obtain ⟨k, rfl, hslash⟩ := Literal.escape_slash h
      exact .inr ⟨d, k, by simp [decodeHead, h], hslash⟩
    | none =>
      have hsimple : Literal.simpleEscape? x = none := by
        cases hsimple : Literal.simpleEscape? x with
        | none => rfl
        | some d => simp [Literal.escape?, hsimple] at h
      refine .inl ⟨by simp [decodeHead, h], ?_, ?_, fun _ => ?_⟩ <;> rintro rfl <;> cases hsimple

/-- A character of a text between quotes: a quote is escaped, a backslash that stands for itself is
not the last character, and a dollar sign does not interpolate. -/
structure StaysInside (quote : Quote) (text : List Char) (c : SourceChar) : Prop where
  mark : c.char = quote.mark → c.span.start + 2 ≤ c.span.stop
  slash : c.char = '\\' → c.span.stop = c.span.start + 1 → c.span.stop < text.length
  dollar : quote = .double → c.char = '$' → c.span.stop = c.span.start + 1 →
    startsExpansion (text.drop c.span.stop) = false

/-- The first character of a text between quotes stays inside, and what follows it is such a text
again. -/
theorem enclosedBy_step {c decoded : Char} {cs : List Char} {n : Nat} (front : List Char)
    (h : EnclosedBy quote (c :: cs)) (hhead : decodeHead quote c cs = (decoded, n)) :
    EnclosedBy quote (cs.drop (n - 1)) ∧
      StaysInside quote (front ++ c :: cs) ⟨decoded, ⟨front.length, front.length + n⟩⟩ := by
  cases h with
  | plain hslash hmark hdollar h =>
    simp only [decodeHead, if_neg hslash] at hhead
    cases hhead
    refine ⟨h, fun hc => absurd hc hmark, fun hc => absurd hc hslash, fun hdouble hc _ => ?_⟩
    rw [List.drop_length_add_append]
    exact hdollar hdouble hc
  | @pair x cs h =>
    obtain ⟨heq, hslash, hmark, hdollar⟩ | ⟨d, k, heq, hnone⟩ := decodeHead_pair quote x cs
    · -- the backslash stands for itself, and `x` is read as the character after it
      rw [heq] at hhead
      cases hhead
      refine ⟨.plain hslash hmark (fun hdouble hx => absurd hx (hdollar hdouble)) h, ?_, ?_, ?_⟩
      · intro hc
        cases quote <;> cases hc
      · intro _ _
        simp
      · intro _ hc
        cases hc
    · rw [heq] at hhead
      cases hhead
      refine ⟨h.drop hnone, fun _ => ?_, fun _ hone => ?_, fun _ _ hone => ?_⟩
      · exact Nat.add_le_add_left (Nat.le_add_left 2 k) _
      · cases Nat.add_left_cancel hone
      · cases Nat.add_left_cancel hone

theorem staysInside_of_enclosedBy {offset : Nat} {cs front : List Char} (h : EnclosedBy quote cs)
    (hfront : front.length = offset) :
    ∀ c ∈ decodeFrom quote offset cs, StaysInside quote (front ++ cs) c := by
  induction offset, cs using decodeFrom.induct quote generalizing front with
  | case1 offset =>
    rw [decodeFrom]
    exact List.forall_mem_nil _
  | case2 offset c cs decoded n hhead ih =>
    subst hfront
    obtain ⟨hrest, hfirst⟩ := enclosedBy_step front h hhead
    have hn := decodeHead_length quote c cs
    rw [hhead] at hn
    have hlength : (front ++ c :: cs.take (n - 1)).length = front.length + n := by
      rw [List.length_append, List.length_cons, List.length_take_of_le (Nat.sub_le_of_le_add hn.2),
        Nat.sub_add_cancel hn.1]
    have hlater := ih hrest hlength
    rw [List.append_assoc, List.cons_append, List.take_append_drop] at hlater
    rw [decodeFrom, hhead]
    exact List.forall_mem_cons.mpr ⟨hfirst, hlater⟩

/-- A text whose characters leave the quotes around it where they are: quotes in it are escaped, no
backslash is left over for the quote after it, and in double quotes nothing interpolates. -/
structure Encloses (quote : Quote) (body : String) : Prop where
  marks : ∀ c ∈ decode quote body, c.char = quote.mark → c.span.start + 2 ≤ c.span.stop
  last : ∀ c ∈ (decode quote body).getLast?, ¬(c.char = '\\' ∧ c.span.stop = c.span.start + 1)
  dollars : quote = .double → ∀ c ∈ decode quote body, c.char = '$' →
    c.span.stop = c.span.start + 1 → startsExpansion (body.toList.drop c.span.stop) = false

theorem encloses_of_enclosedBy {body : String} (h : EnclosedBy quote body.toList) :
    Encloses quote body := by
  have hinside : ∀ c ∈ decode quote body, StaysInside quote body.toList c :=
    staysInside_of_enclosedBy h (List.length_nil (α := Char))
  refine ⟨fun c hc => (hinside c hc).mark, fun c hc hslash => ?_,
    fun hdouble c hc => (hinside c hc).dollar hdouble⟩
  have hlt := (hinside c (List.mem_of_getLast? hc)).slash hslash.1 hslash.2
  have hstop := (decodeFrom_tiled quote 0 body.toList).stopOf_eq
  rw [stopOf, show (decodeFrom quote 0 body.toList).getLast? = some c from hc, Nat.zero_add] at hstop
  exact Nat.ne_of_lt hlt hstop

/-- A string token that has its end is a text between two quotes, and the characters of that text,
as they are decoded, leave the quotes where the tokens have them. -/
theorem quoted_encloses {options : LexerOptions} {source : String} {t : Token}
    (ht : t ∈ (tokenizeWith options source).tokens) (hkind : t.kind = quote.kind)
    (hended : ∀ e ∈ (tokenizeWith options source).errors, e.position = t.start →
      e.fault.isUnterminated = false) :
    ∃ body, t.text = quote.enclose body ∧ Encloses quote body := by
  have hcode : t.kind.isCode = true := hkind ▸ quote.kind_isCode
  obtain ⟨c, cs, more, htext, hlength, hreading⟩ := Lexed.Delimits.reads ⟨ht, hcode, hended⟩
  rw [hkind] at hreading
  obtain ⟨rfl, body, hbody, henclosed⟩ := readCode_enclosed hreading
  rw [List.take_of_length_le hlength] at hbody
  refine ⟨String.ofList body, String.toList_injective ?_, encloses_of_enclosedBy ?_⟩
  · rw [htext, hbody, quote.toList_enclose, String.toList_ofList]
  · rwa [String.toList_ofList]

/-- Escaped backslashes and quotes, an escape of one digit, one that is none, and a dollar sign, in
front of a string without an end. -/
theorem quoted_encloses_escapes :
    ∃ body, "\"\\\\\\\"\\x4$ \\u\x7b\\\"\"" = Literal.Quote.double.enclose body ∧
      Encloses .double body := by
  have ht : (⟨.doubleQuotedString, "\"\\\\\\\"\\x4$ \\u\x7b\\\"\"", ⟨1, 6⟩, []⟩ : Token) ∈
      (tokenize "<?php \"\\\\\\\"\\x4$ \\u\x7b\\\"\" 'b").tokens := by decide +kernel
  exact quoted_encloses ht rfl (by decide +kernel)

end Pattern

end PhpSyntax
