import PhpSyntax.Proofs.Lexer.Readings
import PhpSyntax.Proofs.Printer.Headers

/-!
How the pieces of a source end. A string, a block comment or a heredoc whose end is missing takes
all that is left; every other string and block comment has the end that its start asks for.
-/

namespace PhpSyntax

def LexFault.isUnterminated : LexFault → Bool
  | unexpectedCharacter _ => false
  | unterminatedString | unterminatedComment | unterminatedHeredoc _ => true

def TokenKind.quote? : TokenKind → Option Char
  | singleQuotedString => some '\x27'
  | doubleQuotedString | expandableString => some '\x22'
  | shellCommand => some '\x60'
  | _ => none

namespace Lexer

variable {c : Char} {cs : List Char}

/-- A text ends as its piece asks for. Of the comments only the blocks have an end of their own. -/
def Piece.Closed (text : List Char) : Piece → Prop
  | comment => "/*".toList <+: text → ∃ body, text = "/*".toList ++ body ++ "*/".toList
  | token kind => ∀ quote, kind.quote? = some quote → ∃ body, text = quote :: body ++ [quote]
  | blank | stray => True

def Piece.HasFault (piece : Piece) (text : List Char) : LexFault → Prop
  | .unterminatedString => ∃ kind quote body,
      piece = .token kind ∧ kind.quote? = some quote ∧ text = quote :: body
  | .unterminatedComment => piece = .comment ∧ "/*".toList <+: text
  | .unterminatedHeredoc _ => piece = .token .heredoc ∨ piece = .token .nowdoc
  | .unexpectedCharacter c => piece = .stray ∧ text = [c]

structure Reading.Ends (c : Char) (cs : List Char) (r : Reading) : Prop where
  hasFault : ∀ fault, r.fault = some fault → r.piece.HasFault (c :: cs.take r.more) fault
  runsOut : ∀ fault, r.fault = some fault → fault.isUnterminated = true → r.more = cs.length
  closed : (∀ fault, r.fault = some fault → fault.isUnterminated = false) →
    r.piece.Closed (c :: cs.take r.more)

namespace Reading.Ends

variable {r r' : Reading}

theorem sound {piece : Piece} {n : Nat} (h : piece.Closed (c :: cs.take n)) :
    (Reading.sound piece n).Ends c cs :=
  ⟨nofun, nofun, fun _ => h⟩

theorem token {kind : TokenKind} (h : kind.quote? = none) (n : Nat) :
    (Reading.sound (.token kind) n).Ends c cs :=
  sound fun quote hq => by simp [h] at hq

/-- A reading whose piece is closed or, if not, takes all characters. -/
theorem ofClosed {piece : Piece} {n : Nat} {closed : Bool} {fault : LexFault}
    (hu : fault.isUnterminated = true)
    (h : closed = true → piece.Closed (c :: cs.take n))
    (h' : closed = false → n = cs.length ∧ piece.HasFault (c :: cs) fault) :
    (⟨piece, n, if closed then none else some fault⟩ : Reading).Ends c cs := by
  cases closed with
  | true => exact sound (h rfl)
  | false =>
    obtain ⟨hn, hfault⟩ := h' rfl
    refine ⟨?_, fun _ _ _ => hn, fun hsound => ?_⟩
    · rintro _ ⟨⟩
      simpa [hn] using hfault
    · exact absurd hu (by simp [hsound fault rfl])

theorem ite {p : Prop} [Decidable p] (h : p → r.Ends c cs) (h' : ¬ p → r'.Ends c cs) :
    (if p then r else r').Ends c cs := by
  split
  · exact h ‹p›
  · exact h' ‹¬ p›

end Reading.Ends

theorem quotedRun_open {close : Char} {interpolates : Bool} {state : QuotedState}
    (h : (quotedRun close interpolates state cs).closed = false) :
    (quotedRun close interpolates state cs).length = cs.length := by
  induction cs generalizing state with
  | nil => rfl
  | cons c cs ih =>
    unfold quotedRun at h ⊢
    split at h
    · cases h
    · next hc =>
      rw [if_neg hc]
      exact congrArg (· + 1) (ih h)

theorem blockCommentRun_open (h : (blockCommentRun cs).2 = false) :
    (blockCommentRun cs).1 = cs.length := by
  induction cs with
  | nil => rfl
  | cons c cs ih =>
    unfold blockCommentRun at h ⊢
    split at h
    · cases h
    · next hc => rw [if_neg hc, List.length_cons, ← ih h]

theorem blockCommentRun_closed (h : (blockCommentRun cs).2 = true) :
    ∃ body, cs.take (blockCommentRun cs).1 = body ++ "*/".toList := by
  induction cs with
  | nil => cases h
  | cons c cs ih =>
    unfold blockCommentRun at h ⊢
    split
    · next hc =>
      rw [Bool.and_eq_true, decide_eq_true_eq, decide_eq_true_eq] at hc
      obtain ⟨rfl, after, rfl⟩ := hc.imp_right List.head?_eq_some_iff.mp
      exact ⟨[], rfl⟩
    · next hc =>
      rw [if_neg hc] at h
      obtain ⟨body, hbody⟩ := ih h
      exact ⟨c :: body, congrArg (c :: ·) hbody⟩

theorem heredocRun_open {label : List Char} {atLineStart : Bool}
    (h : (heredocRun label atLineStart cs).2 = false) :
    (heredocRun label atLineStart cs).1 = cs.length := by
  induction cs generalizing atLineStart with
  | nil => rfl
  | cons c cs ih =>
    unfold heredocRun at h ⊢
    split
    · next n hn => rw [hn] at h; cases h
    · next hn => rw [hn] at h; rw [List.length_cons, ← ih h]

theorem readQuoted_ends {interpolates : Bool} {kind expanded : TokenKind}
    (hk : kind.quote? = some c) (he : expanded.quote? = some c) :
    (readQuoted c interpolates kind expanded cs).Ends c cs := by
  have hquote : ∀ expandable : Bool, (if expandable then expanded else kind).quote? = some c := by
    rintro (_ | _)
    · exact hk
    · exact he
  refine .ofClosed rfl (fun hclosed quote hq => ?_) fun hopen => ⟨quotedRun_open hopen, ?_⟩
  · obtain rfl := Option.some.inj (hq.symm.trans (hquote _))
    obtain ⟨body, hbody⟩ := quotedRun_closed hclosed
    exact ⟨body, congrArg _ hbody⟩
  · exact ⟨_, c, cs, rfl, hquote _, rfl⟩

theorem readLineComment_ends (h : c ≠ '/' ∨ cs.head? = some '/') :
    (readLineComment cs).Ends c cs := by
  refine .sound fun hblock => ?_
  obtain ⟨rfl, hstar⟩ := List.cons_prefix_cons.mp hblock
  have hhead : cs.head? = some '/' := h.resolve_left (· rfl)
  obtain ⟨after, rfl⟩ := List.head?_eq_some_iff.mp hhead
  cases hn : lineCommentLength ('/' :: after) with
  | zero => rw [hn] at hstar; cases List.prefix_nil.mp hstar
  | succ n =>
    rw [hn] at hstar
    exact absurd (List.cons_prefix_cons.mp hstar).1 (by decide)

theorem readBlockComment_ends (h : cs.head? = some '*') :
    (readBlockComment cs).Ends '/' cs := by
  obtain ⟨after, rfl⟩ := List.head?_eq_some_iff.mp h
  refine .ofClosed rfl (fun hclosed _ => ?_) fun hopen => ⟨?_, rfl, ⟨after, rfl⟩⟩
  · obtain ⟨body, hbody⟩ := blockCommentRun_closed hclosed
    refine ⟨body, ?_⟩
    rw [List.tail_cons] at hbody ⊢
    rw [List.take_succ_cons, hbody]
    rfl
  · exact congrArg (· + 1) (blockCommentRun_open hopen)

/-- A header is no longer than the text from which it is read. -/
theorem heredocHeader?_length_le {header : HeredocHeader} (h : heredocHeader? cs = some header) :
    header.length ≤ 3 + cs.length := by
  obtain ⟨l, hl, tail, rfl⟩ := HeaderLine.exists_of_header h
  rw [HeaderLine.header_eq hl] at h
  rw [← Option.some.inj h, List.length_append]
  exact Nat.add_le_add_left (Nat.le_add_right _ _) 3

theorem readHeredoc_ends {header : HeredocHeader} (hangle : "<<".toList.isPrefixOf cs = true)
    (h : heredocHeader? (cs.drop 2) = some header) : (readHeredoc header cs).Ends c cs := by
  have hle : header.length - 1 ≤ cs.length := by
    have htwo : 2 ≤ cs.length := (List.isPrefixOf_iff_prefix.mp hangle).length_le
    have := heredocHeader?_length_le h
    rw [List.length_drop] at this
    omega
  refine .ofClosed rfl (fun _ quote hq => ?_) fun hopen => ⟨?_, ?_⟩
  · split at hq <;> cases hq
  · have := heredocRun_open hopen
    rw [List.length_drop] at this
    omega
  · cases header.isNowdoc with
    | true => exact .inr rfl
    | false => exact .inl rfl

theorem readPunctuator_ends : (readPunctuator c cs).Ends c cs := by
  unfold readPunctuator
  split
  · exact .token rfl _
  · refine ⟨?_, ?_, fun _ => trivial⟩
    · rintro _ ⟨⟩
      exact ⟨rfl, rfl⟩
    · rintro _ ⟨⟩ hu
      cases hu

theorem readCode_ends (c : Char) (cs : List Char) : (readCode c cs).Ends c cs := by
  have h := readCode_cases c cs
  generalize readCode c cs = r at h ⊢
  cases h with
  | blank => exact .sound trivial
  | lineComment h => exact readLineComment_ends h
  | blockComment h hnext =>
    rw [h]
    exact readBlockComment_ends hnext
  | number =>
    have hk : (numberLength c cs).1.quote? = none := by
      obtain h | h := numberLength_kind c cs
      · rw [h]; rfl
      · rw [h]; rfl
    exact .token hk _
  | singleQuoted h => exact readQuoted_ends (h ▸ rfl) (h ▸ rfl)
  | doubleQuoted h => exact readQuoted_ends (h ▸ rfl) (h ▸ rfl)
  | shellCommand h => exact readQuoted_ends (h ▸ rfl) (h ▸ rfl)
  | heredoc h hheader => exact readHeredoc_ends h hheader
  | punctuator => exact readPunctuator_ends
  | closeTag | variableName | name | cast => exact .token rfl _

theorem readHtml_ends (options : LexerOptions) (c : Char) (cs : List Char) :
    (readHtml options c cs).Ends c cs := by
  unfold readHtml
  split
  · next kind n h =>
    obtain rfl | rfl := openTagAt_kind h
    · exact .token rfl _
    · exact .token rfl _
  · exact .token rfl _

end Lexer

end PhpSyntax
