import PhpSyntax.Proofs.Pattern.Escapes
import PhpSyntax.Proofs.Pattern.Spans.Parts

namespace PhpSyntax.Pattern

namespace Reader

/-- At most `n` characters are left, each in its place, and all faults were found in the pattern. -/
structure Fits (n : Nat) (r : Reader) : Prop where
  length : r.rest.length ≤ n
  tiled : Tiled r.lastStop r.rest r.stop
  errors : ∀ e ∈ r.errors, e.span.start ≤ e.span.stop ∧ e.span.stop ≤ r.stop

/-- What is left of a reader after another reading has gone on from it. -/
structure Passes (n : Nat) (r r' : Reader) : Prop where
  advances : Advances r r'
  fits : Fits n r'
  le : r.lastStop ≤ r'.lastStop

variable {n m : Nat} {r r' r'' : Reader}

namespace Fits

theorem stands (h : Fits n r) : Stands r.rest r :=
  ⟨List.suffix_refl _, h.tiled⟩

theorem mono (h : Fits n r) (hnm : n ≤ m) : Fits m r :=
  { h with length := Nat.le_trans h.length hnm }

theorem passes (h : Fits n r) : Passes n r r :=
  ⟨.refl r, h, Nat.le_refl _⟩

theorem offset_eq (h : Fits n r) : r.offset = r.lastStop :=
  h.stands.offset_eq

theorem lastStop_le (h : Fits n r) : r.lastStop ≤ r.stop :=
  h.tiled.le

/-- A reader that has read on fits, if it has noted no fault outside of the pattern. -/
theorem advance (h : Fits n r) (hadv : Advances r r')
    (herrors : ∀ e ∈ r'.errors, e.span.start ≤ e.span.stop ∧ e.span.stop ≤ r.stop) :
    Passes n r r' :=
  ⟨hadv, ⟨Nat.le_trans hadv.length_le h.length, (h.stands.advance hadv).tiled, hadv.stop ▸ herrors⟩,
    h.stands.lastStop_le hadv⟩

theorem silent (h : Fits n r) (hadv : Advances r r') (herrors : r'.errors = r.errors) :
    Passes n r r' :=
  h.advance hadv (herrors ▸ h.errors)

theorem skip (h : Fits n r) (k : Nat) : Passes n r (r.skip k) :=
  h.silent (.skip r k) rfl

/-- What was read since an offset has the stretch from there. -/
theorem spanFrom_eq {start : Nat} (hstart : start ≤ r.lastStop) :
    r.spanFrom start = ⟨start, r.lastStop⟩ := by
  rw [spanFrom, Nat.max_eq_left hstart]

theorem report (h : Fits n r) (fault : PatternFault) {span : Span} (hspan : span.start ≤ span.stop)
    (hstop : span.stop ≤ r.stop) : Passes n r (r.report fault span) := by
  refine h.advance (.report r fault span) (List.forall_mem_append.mpr ⟨h.errors, ?_⟩)
  simpa using ⟨hspan, hstop⟩

theorem currentSpan_le (h : Fits n r) :
    r.currentSpan.start ≤ r.currentSpan.stop ∧ r.currentSpan.stop ≤ r.stop := by
  unfold currentSpan
  cases hrest : r.rest with
  | nil => simp
  | cons c cs =>
    have := h.tiled.mem c (by simp [hrest])
    exact ⟨Nat.le_of_lt this.2.1, this.2.2⟩

theorem lastStop_lt_skip (h : Fits n r) (hne : r.rest ≠ []) {k : Nat} (hk : 0 < k) :
    r.lastStop < (r.skip k).lastStop := by
  refine (h.stands.tiled_take k).lt ?_
  simp [hne, Nat.ne_of_gt hk]

end Fits

theorem Passes.trans (h : Passes n r r') (h' : Passes n r' r'') : Passes n r r'' :=
  ⟨h.advances.trans h'.advances, h'.fits, Nat.le_trans h.le h'.le⟩

end Reader

namespace Reading

open Reader

variable {α β : Type} {n m : Nat} {r : Reader}

/-- From a reader that fits, the computation reads on to one that fits, and `Q` holds of its result
and of this reader. -/
def Yields (n : Nat) (r : Reader) (x : Reading α) (Q : α → Reader → Prop) : Prop :=
  Fits n r → Passes n r (x r).2 ∧ Q (x r).1 (x r).2

namespace Yields

variable {x : Reading α} {k : α → Reading β} {P Q : α → Reader → Prop} {R : β → Reader → Prop}

theorem assume (h : Fits n r → Yields n r x Q) : Yields n r x Q := fun hr => h hr hr

theorem imp (h : Yields n r x P) (hpq : ∀ a r', Passes n r r' → P a r' → Q a r') :
    Yields n r x Q := fun hr =>
  ⟨(h hr).1, hpq _ _ (h hr).1 (h hr).2⟩

/-- A computation that reads fewer characters yields what it yields in a longer pattern. -/
theorem deeper (h : Yields n r x Q) (hlength : r.rest.length ≤ n) (hnm : n ≤ m) :
    Yields m r x Q := by
  intro hr
  obtain ⟨hpasses, hq⟩ := h { hr with length := hlength }
  exact ⟨{ hpasses with fits := hpasses.fits.mono hnm }, hq⟩

theorem pure {a : α} (h : Fits n r → Q a r) : Yields n r (pure a) Q := fun hr =>
  ⟨hr.passes, h hr⟩

theorem bind (hx : Yields n r x P)
    (hk : ∀ a r', Passes n r r' → P a r' → Yields n r' (k a) R) : Yields n r (x >>= k) R := by
  intro hr
  obtain ⟨hpasses, hp⟩ := hx hr
  obtain ⟨hpasses', hq⟩ := hk _ _ hpasses hp hpasses.fits
  exact ⟨hpasses.trans hpasses', hq⟩

theorem get {k : Reader → Reading β} (h : Fits n r → Yields n r (k r) R) :
    Yields n r (get >>= k) R := fun hr => h hr hr

/-- A computation that notes no faults. -/
theorem silent (hx : x.Moves) (herrors : (x r).2.errors = r.errors) :
    Yields n r x fun _ _ => True := fun hr =>
  ⟨hr.silent (hx r) herrors, trivial⟩

theorem skip {l : Nat} {k : Unit → Reading β}
    (h : Passes n r (r.skip l) → Yields n (r.skip l) (k ()) R) :
    Yields n r (skip l >>= k) R := fun hr =>
  have hskip := hr.skip l
  have hrest := h hskip hskip.fits
  ⟨hskip.trans hrest.1, hrest.2⟩

theorem getSkip {l : Reader → Nat} {k : Reader → Reading β}
    (h : Passes n r (r.skip (l r)) → Yields n (r.skip (l r)) (k r) R) :
    Yields n r (do
      let r ← MonadState.get
      set (r.skip (l r))
      k r) R := fun hr =>
  have hskip := hr.skip (l r)
  have hrest := h hskip hskip.fits
  ⟨hskip.trans hrest.1, hrest.2⟩

/-- Characters are read, and what follows them is shorter. -/
theorem consume {l : Nat} {k : Unit → Reading β} (hne : r.rest ≠ []) (hl : 0 < l)
    (h : r.lastStop < (r.skip l).lastStop → Yields n (r.skip l) (k ()) R) :
    Yields (n + 1) r (Reading.skip l >>= k) R := by
  refine .assume fun hr => skip fun _ => (h (hr.lastStop_lt_skip hne hl)).deeper ?_ n.le_succ
  have := length_skip_lt hne hl
  have := hr.length
  omega

theorem spanFrom {start : Nat} {k : Span → Reading β} (hstart : start ≤ r.lastStop)
    (h : Yields n r (k ⟨start, r.lastStop⟩) R) : Yields n r (Reading.spanFrom start >>= k) R := by
  intro hr
  have hrun : (Reading.spanFrom start >>= k) r = k (r.spanFrom start) r := rfl
  rw [hrun, Fits.spanFrom_eq hstart]
  exact h hr

theorem eat (c : Char) : Yields n r (eat c) fun _ _ => True := by
  refine silent (.eat c) ?_
  change ((if r.sees c then _ else _ : Reading Bool) r).2.errors = r.errors
  split <;> rfl

theorem takeRun (p : Char → Bool) : Yields n r (takeRun p) fun _ _ => True :=
  silent (.takeRun p) rfl

theorem skipExtended : Yields n r skipExtended fun _ _ => True := by
  refine silent .skipExtended ?_
  change ((if r.flags.extended then _ else _ : Reading Unit) r).2.errors = r.errors
  split <;> rfl

theorem report (fault : PatternFault) {span : Span} (hspan : span.start ≤ span.stop)
    (hstop : span.stop ≤ r.stop) : Yields n r (report fault span) fun _ _ => True := fun hr =>
  ⟨hr.report fault hspan hstop, trivial⟩

theorem reportFrom (fault : PatternFault) {start : Nat} (hstart : start ≤ r.lastStop) :
    Yields n r (reportFrom fault start) fun _ _ => True := by
  intro hr
  refine ⟨?_, trivial⟩
  change Passes n r (r.report fault (r.spanFrom start))
  rw [Fits.spanFrom_eq hstart]
  exact hr.report fault hstart hr.lastStop_le

theorem expected (what : PatternExpectation) : Yields n r (expected what) fun _ _ => True :=
  fun hr => ⟨hr.report _ hr.currentSpan_le.1 hr.currentSpan_le.2, trivial⟩

theorem expect (c : Char) : Yields n r (expect c) fun _ _ => True := by
  refine .bind (.eat c) fun found r' _ _ => ?_
  split
  · exact .pure fun _ => trivial
  · exact .bind (.expected _) fun _ _ _ _ => .pure fun _ => trivial

/-- The next character, if there is one, has been read. -/
theorem next? {k : Option Char → Reading β}
    (h : Passes n r (r.skip 1) → Yields n (r.skip 1) (k r.head?) R) :
    Yields n r (Reading.next? >>= k) R :=
  getSkip (l := fun _ => 1) (k := fun r => k r.head?) h

theorem plainCharacter (c : Char) (hne : r.rest ≠ []) :
    Yields n r (plainCharacter c) fun a r' =>
      a.span = ⟨r.lastStop, r'.lastStop⟩ ∧ r.lastStop < r'.lastStop := fun hr =>
  ⟨hr.skip 1, hr.stands.currentSpan_eq hne, hr.lastStop_lt_skip hne Nat.one_pos⟩

end Yields

end Reading

end PhpSyntax.Pattern
