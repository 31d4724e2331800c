import Mathlib.Order.Hom.Basic
import Mathlib.Order.MinMax
import PhpSyntax.Proofs.Pattern.Moved.Trees

namespace PhpSyntax.Pattern

namespace Reader

def move (f : Nat → Nat) (r : Reader) : Reader where
  rest := r.rest.map (·.move f)
  stop := f r.stop
  flags := r.flags
  groups := r.groups
  errors := r.errors.map (·.move f)
  lastStop := f r.lastStop

variable {f : Nat → Nat} {r : Reader}

@[simp]
theorem move_flags : (r.move f).flags = r.flags := rfl

@[simp]
theorem move_rest_length : (r.move f).rest.length = r.rest.length :=
  List.length_map _

@[simp]
theorem move_peek? (n : Nat) : (r.move f).peek? n = r.peek? n := by
  simp [peek?, move, SourceChar.move, Function.comp_def]

@[simp]
theorem move_head? : (r.move f).head? = r.head? :=
  move_peek? 0

@[simp]
theorem move_sees (c : Char) : (r.move f).sees c = r.sees c := by
  simp [sees]

@[simp]
theorem move_offset : (r.move f).offset = f r.offset := by
  simp only [offset, move, List.head?_map]
  cases r.rest.head? <;> rfl

@[simp]
theorem move_currentSpan : (r.move f).currentSpan = r.currentSpan.move f := by
  simp only [currentSpan, move, List.head?_map]
  cases r.rest.head? <;> rfl

@[simp]
theorem move_spanFrom (f : ℕ →o ℕ) (start : Nat) :
    (r.move f).spanFrom (f start) = (r.spanFrom start).move f :=
  congrArg (Span.mk (f start)) (f.monotone.map_max).symm

@[simp]
theorem move_skip (n : Nat) : (r.move f).skip n = (r.skip n).move f := by
  simp only [skip, move, ← List.map_take, ← List.map_drop, List.getLast?_map]
  cases (r.rest.take n).getLast? <;> rfl

@[simp]
theorem move_report (fault : PatternFault) (span : Span) :
    (r.move f).report fault (span.move f) = (r.report fault span).move f := by
  simp [report, move, PatternError.move]

@[simp]
theorem move_runLength (p : Char → Bool) : (r.move f).runLength p = r.runLength p := by
  simp [runLength, move, SourceChar.move, List.takeWhile_map, Function.comp_def]

@[simp]
theorem move_text (n : Nat) : (r.move f).text n = r.text n := by
  simp [text, move, SourceChar.move, ← List.map_take, Function.comp_def]

@[simp]
theorem move_bounds? : (r.move f).bounds? = r.bounds? := by
  have hchars : (r.move f).rest.tail.map (·.char) = r.rest.tail.map (·.char) := by
    simp [move, SourceChar.move, ← List.map_tail, Function.comp_def]
  rw [bounds?, bounds?, hchars, move_sees]

@[simp]
theorem move_lowSurrogate? : (r.move f).lowSurrogate? = r.lowSurrogate? := by
  simp only [lowSurrogate?, move_sees, move_peek?, move_text]

@[simp]
theorem move_seesRange : (r.move f).seesRange = r.seesRange := by
  simp only [seesRange, move_sees, move_peek?]

@[simp]
theorem move_posix? : (r.move f).posix? = r.posix? := by
  have hname : ∀ n, ((((r.move f).rest.drop n).takeWhile fun c => c.char.isAlpha).map (·.char)) =
      ((r.rest.drop n).takeWhile fun c => c.char.isAlpha).map (·.char) := by
    intro n
    simp [move, SourceChar.move, ← List.map_drop, List.takeWhile_map, Function.comp_def]
  simp only [posix?, move_peek?, hname]

end Reader

namespace Reading

/-- From `r` on, the second computation does among the moved characters what the first one does:
its result is that of the first after `g`. -/
def Carries (f : ℕ →o ℕ) {α β : Type} (g : α → β) (r : Reader) (x : Reading α) (y : Reading β) :
    Prop :=
  y (r.move f) = (g (x r).1, (x r).2.move f)

namespace Carries

variable {f : ℕ →o ℕ} {α β γ δ : Type} {g : α → β} {h : γ → δ} {r : Reader}

theorem pure {a : α} {b : β} (hb : b = g a) : Carries f g r (Pure.pure a) (Pure.pure b) :=
  hb ▸ rfl

theorem bind {x : Reading α} {y : Reading β} {k : α → Reading γ} {k' : β → Reading δ}
    (hx : Carries f g r x y) (hk : ∀ a r', Carries f h r' (k a) (k' (g a))) :
    Carries f h r (x >>= k) (y >>= k') := by
  have hrun : (y >>= k') (r.move f) = k' (y (r.move f)).1 (y (r.move f)).2 := rfl
  rw [Carries, hrun, hx]
  exact hk _ _

theorem get {k : Reader → Reading γ} {k' : Reader → Reading δ}
    (hk : Carries f h r (k r) (k' (r.move f))) :
    Carries f h r (MonadState.get >>= k) (MonadState.get >>= k') :=
  hk

theorem set {r' : Reader} {k : PUnit → Reading γ} {k' : PUnit → Reading δ}
    (hk : Carries f h r' (k ⟨⟩) (k' ⟨⟩)) :
    Carries f h r (MonadStateOf.set r' >>= k) (MonadStateOf.set (r'.move f) >>= k') :=
  hk

theorem ite {p : Prop} [Decidable p] {x x' : Reading α} {y y' : Reading β}
    (hx : Carries f g r x y) (hx' : Carries f g r x' y') :
    Carries f g r (if p then x else x') (if p then y else y') := by
  split
  · exact hx
  · exact hx'

theorem skip (n : Nat) : Carries f id r (Reading.skip n) (Reading.skip n) :=
  congrArg (Prod.mk ()) (Reader.move_skip n)

theorem report (fault : PatternFault) (span : Span) :
    Carries f id r (Reading.report fault span) (Reading.report fault (span.move f)) :=
  congrArg (Prod.mk ()) (Reader.move_report fault span)

theorem reportFrom (fault : PatternFault) (start : Nat) :
    Carries f id r (Reading.reportFrom fault start) (Reading.reportFrom fault (f start)) := by
  refine congrArg (Prod.mk ()) ?_
  change (r.move f).report fault ((r.move f).spanFrom (f start)) = _
  rw [Reader.move_spanFrom, Reader.move_report]
  rfl

theorem expected (what : PatternExpectation) :
    Carries f id r (Reading.expected what) (Reading.expected what) := by
  refine congrArg (Prod.mk ()) ?_
  change (r.move f).report (.expected what (r.move f).head?) (r.move f).currentSpan = _
  rw [Reader.move_head?, Reader.move_currentSpan, Reader.move_report]
  rfl

theorem spanFrom (start : Nat) :
    Carries f (Span.move f) r (Reading.spanFrom start) (Reading.spanFrom (f start)) :=
  congrArg (Prod.mk · (r.move f)) (Reader.move_spanFrom f start)

theorem next? : Carries f id r Reading.next? Reading.next? :=
  congrArg₂ Prod.mk Reader.move_head? (Reader.move_skip 1)

theorem takeRun (p : Char → Bool) : Carries f id r (Reading.takeRun p) (Reading.takeRun p) := by
  refine congrArg₂ Prod.mk ?_ ?_
  · rw [Reader.move_runLength, Reader.move_text]
    rfl
  · rw [Reader.move_runLength, Reader.move_skip]
    rfl

theorem plainCharacter (c : Char) :
    Carries f (Character.move f) r (Reading.plainCharacter c) (Reading.plainCharacter c) :=
  congrArg₂ Prod.mk (congrArg (Character.mk c.toNat) Reader.move_currentSpan) (Reader.move_skip 1)

theorem eat (c : Char) : Carries f id r (Reading.eat c) (Reading.eat c) := by
  refine .get ?_
  rw [Reader.move_sees, Reader.move_skip]
  exact .ite (.set (.pure rfl)) (.pure rfl)

theorem expect (c : Char) : Carries f id r (Reading.expect c) (Reading.expect c) := by
  refine .bind (.eat c) fun found r' => ?_
  exact .ite (.pure rfl) (.bind (.expected _) fun _ _ => .pure rfl)

end Carries

end Reading

theorem extendedLength_move (f : Nat → Nat) (inComment : Bool) (cs : List SourceChar) :
    Reading.extendedLength inComment (cs.map (·.move f)) = Reading.extendedLength inComment cs := by
  induction cs generalizing inComment with
  | nil => cases inComment <;> rfl
  | cons c cs ih =>
    cases inComment with
    | false =>
      rw [List.map_cons, Reading.extendedLength, Reading.extendedLength, ih, ih]
      rfl
    | true =>
      rw [List.map_cons, Reading.extendedLength, Reading.extendedLength, ih]
      rfl

open Reading

variable {f : ℕ →o ℕ} {r : Reader}

theorem skipExtended_carries : Carries f id r skipExtended skipExtended := by
  refine .get ?_
  rw [show extendedLength false (r.move f).rest = _ from extendedLength_move f false r.rest]
  exact .ite (.skip _) (.pure rfl)

section Escapes

theorem digits_carries (base limit : Nat) : Carries f id r (digits base limit) (digits base limit) := by
  refine .get ?_
  simp only [Reader.move_runLength, Reader.move_skip, Reader.move_text]
  exact .set (.pure rfl)

theorem hexEscape_carries : Carries f id r hexEscape hexEscape := by
  refine .bind (.eat _) fun braced _ => .ite ?_ ?_
  · exact .bind (digits_carries 16 2) fun _ _ => .pure rfl
  · refine .bind (.takeRun _) fun written _ => .ite ?_ ?_
    · exact .bind (.expected _) fun _ _ => .pure rfl
    · exact .bind (.expect _) fun _ _ => .ite (.pure rfl) (.pure rfl)

theorem unicodeEscape_carries : Carries f id r unicodeEscape unicodeEscape := by
  refine .get ?_
  simp only [Reader.move_runLength, Reader.move_skip, Reader.move_text, Reader.move_lowSurrogate?]
  refine .set (.ite ?_ ?_)
  · exact .bind (.expected _) fun _ _ => .pure rfl
  · split
    · exact .bind (.skip 6) fun _ _ => .pure rfl
    · exact .pure rfl

theorem controlEscape_carries (start : Nat) :
    Carries f id r (controlEscape start) (controlEscape (f start)) := by
  refine .bind .next? fun c _ => ?_
  cases c with
  | some c => exact .ite (.pure rfl) (.bind (.reportFrom _ start) fun _ _ => .pure rfl)
  | none => exact .bind (.reportFrom _ start) fun _ _ => .pure rfl

theorem codePoint_carries (letter : Char) (start : Nat) :
    Carries f id r (codePoint letter start) (codePoint letter (f start)) := by
  unfold codePoint
  split
  · exact .pure rfl
  · refine .ite (.bind (digits_carries 8 2) fun _ _ => .pure rfl) ?_
    refine .ite hexEscape_carries (.ite unicodeEscape_carries ?_)
    refine .ite (controlEscape_carries start) (.ite (.pure rfl) ?_)
    exact .bind (.reportFrom _ start) fun _ _ => .pure rfl

theorem characterEscape_carries (start : Nat) :
    Carries f (Option.map (Character.move f)) r (characterEscape start)
      (characterEscape (f start)) := by
  refine .bind .next? fun letter _ => ?_
  cases letter with
  | none => exact .pure rfl
  | some letter =>
    refine .bind (codePoint_carries letter start) fun code _ => ?_
    cases code with
    | some code => exact .bind (.spanFrom start) fun _ _ => .pure rfl
    | none => exact .pure rfl

theorem property_carries : Carries f id r property property := by
  refine .bind (.eat _) fun braced _ => .ite ?_ ?_
  · exact .bind (.takeRun _) fun _ _ => .bind (.expect _) fun _ _ => .pure rfl
  · refine .bind .next? fun c _ => ?_
    cases c with
    | some c => exact .pure rfl
    | none => exact .bind (.expected _) fun _ _ => .pure rfl

theorem escapedClass_carries (start : Nat) (letter : Char) :
    Carries f (EscapedClass.move f) r (escapedClass start letter)
      (escapedClass (f start) letter) := by
  refine .bind (.skip 1) fun _ _ => .ite ?_ ?_
  · exact .bind property_carries fun _ _ => .bind (.spanFrom start) fun _ _ => .pure rfl
  · exact .bind (g := id) (.pure rfl) fun _ _ => .bind (.spanFrom start) fun _ _ => .pure rfl

theorem quotedLength_move (f : Nat → Nat) (cs : List SourceChar) :
    quotedLength (cs.map (·.move f)) = quotedLength cs := by
  induction cs with
  | nil => rfl
  | cons c cs ih =>
    have hhead : (cs.map (·.move f)).head?.any (·.char = 'E') = cs.head?.any (·.char = 'E') := by
      cases cs <;> rfl
    rw [List.map_cons, quotedLength, quotedLength, ih, hhead]
    rfl

theorem quotation_carries :
    Carries f (List.map (Character.move f)) r quotation quotation := by
  refine .bind (.skip 2) fun _ r => .get ?_
  rw [show quotedLength (r.move f).rest = _ from quotedLength_move f r.rest]
  dsimp only
  rw [Reader.move_skip]
  refine .set (.pure ?_)
  rw [Reader.move, ← List.map_take, List.map_map, List.map_map]
  rfl

theorem closedReference_carries (start : Nat) (close : Char) :
    Carries f (Option.map (Regex.move f)) r (closedReference start close)
      (closedReference (f start) close) := by
  refine .bind (.skip 1) fun _ _ => .bind (.takeRun _) fun _ _ => .bind (.expect _) fun _ _ => ?_
  exact .ite (.bind (.spanFrom start) fun _ _ => .pure (by simp)) (.pure rfl)

theorem groupReference_carries (start : Nat) (letter : Char) :
    Carries f (Option.map (Regex.move f)) r (groupReference start letter)
      (groupReference (f start) letter) := by
  refine .bind (.skip 1) fun _ r => .get ?_
  rw [Reader.move_head?]
  split
  · exact closedReference_carries start _
  · exact closedReference_carries start _
  · exact closedReference_carries start _
  · refine .ite ?_ (.bind (.expected _) fun _ _ => .pure rfl)
    exact .bind (.skip 1) fun _ _ => .bind (.takeRun _) fun _ _ =>
      .bind (.spanFrom start) fun _ _ => .pure (by simp)
  · exact .bind (.expected _) fun _ _ => .pure rfl

theorem escape_carries : Carries f (Option.map (Regex.move f)) r escape escape := by
  refine .get ?_
  rw [Reader.move_offset]
  generalize r.offset = start
  refine .bind (.skip 1) fun _ r => .get ?_
  rw [Reader.move_head?]
  split
  · exact .bind (.expected _) fun _ _ => .pure rfl
  · rename_i letter _
    refine .ite (.bind (escapedClass_carries start letter) fun _ _ => .pure (by simp)) ?_
    split
    · exact .bind (.skip 1) fun _ _ => .bind (.spanFrom start) fun _ _ => .pure (by simp)
    · refine .ite ?_ (.ite (groupReference_carries start letter) (.ite ?_ ?_))
      · exact .bind (.takeRun _) fun _ _ => .bind (.spanFrom start) fun _ _ => .pure (by simp)
      · exact .bind (.skip 1) fun _ _ => .pure rfl
      · refine .bind (characterEscape_carries start) fun c _ => .pure ?_
        cases c <;> simp

end Escapes

section Quantifiers

theorem bounds_carries : Carries f id r bounds bounds := by
  refine .get ?_
  rw [Reader.move_bounds?, Reader.move_offset]
  split
  · exact .pure rfl
  · refine .bind (.skip _) fun _ _ => .ite ?_ (.pure rfl)
    exact .bind (.reportFrom _ _) fun _ _ => .pure rfl

theorem repetitionBounds_carries : Carries f id r repetitionBounds repetitionBounds := by
  refine .get ?_
  rw [Reader.move_head?]
  split
  · exact .bind (.skip 1) fun _ _ => .pure rfl
  · exact .bind (.skip 1) fun _ _ => .pure rfl
  · exact .bind (.skip 1) fun _ _ => .pure rfl
  · exact bounds_carries

theorem greediness_carries : Carries f id r greediness greediness := by
  refine .bind (.eat _) fun _ _ => .ite (.pure rfl) ?_
  exact .bind (.eat _) fun _ _ => .ite (.pure rfl) (.pure rfl)

theorem quantifier_carries : Carries f id r quantifier? quantifier? := by
  refine .bind repetitionBounds_carries fun limits _ => ?_
  cases limits with
  | some limits => exact .bind greediness_carries fun _ _ => .pure rfl
  | none => exact .pure rfl

theorem quantified_carries (part : Regex) :
    Carries f (Regex.move f) r (quantified part) (quantified (part.move f)) := by
  refine .bind skipExtended_carries fun _ _ => .bind quantifier_carries fun q _ => ?_
  cases q with
  | some q =>
    rw [Regex.span_move]
    exact .bind (.spanFrom part.span.start) fun _ _ => .pure (by simp)
  | none => exact .pure rfl

end Quantifiers

end PhpSyntax.Pattern
