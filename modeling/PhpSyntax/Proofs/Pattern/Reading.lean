import PhpSyntax.Pattern.Reader
import PhpSyntax.Proofs.Pattern.SourceChars

namespace PhpSyntax.Pattern

namespace Reader

/-- The second reader comes from the first by reading on. Faults are never taken back. -/
structure Advances (r r' : Reader) : Prop where
  reads : ∃ cs, r.rest = cs ++ r'.rest ∧ r'.lastStop = stopOf r.lastStop cs
  stop : r'.stop = r.stop
  errors : r.errors <+: r'.errors

namespace Advances

variable {r r' r'' : Reader}

theorem of_same (hrest : r'.rest = r.rest) (hlast : r'.lastStop = r.lastStop)
    (hstop : r'.stop = r.stop) (herrors : r.errors <+: r'.errors) : Advances r r' :=
  ⟨⟨[], by simp [hrest], hlast⟩, hstop, herrors⟩

protected theorem refl (r : Reader) : Advances r r :=
  of_same rfl rfl rfl (List.prefix_refl _)

protected theorem trans (h : Advances r r') (h' : Advances r' r'') : Advances r r'' := by
  obtain ⟨cs, hrest, hlast⟩ := h.reads
  obtain ⟨ds, hrest', hlast'⟩ := h'.reads
  refine ⟨⟨cs ++ ds, ?_, ?_⟩, h'.stop.trans h.stop, h.errors.trans h'.errors⟩
  · rw [hrest, hrest', List.append_assoc]
  · rw [hlast', hlast, stopOf_append]

theorem skip (r : Reader) (n : Nat) : Advances r (r.skip n) :=
  ⟨⟨r.rest.take n, (List.take_append_drop ..).symm, rfl⟩, rfl, List.prefix_refl _⟩

theorem report (r : Reader) (fault : PatternFault) (span : Span) :
    Advances r (r.report fault span) :=
  of_same rfl rfl rfl (List.prefix_append ..)

theorem errors_eq_nil (h : Advances r r') (he : r'.errors = []) : r.errors = [] :=
  List.prefix_nil.mp (he ▸ h.errors)

theorem length_le (h : Advances r r') : r'.rest.length ≤ r.rest.length := by
  obtain ⟨cs, hrest, -⟩ := h.reads
  simp [hrest]

theorem suffix (h : Advances r r') : r'.rest <:+ r.rest := by
  obtain ⟨cs, hrest, -⟩ := h.reads
  exact ⟨cs, hrest.symm⟩

end Advances

@[simp]
theorem peek_skip (r : Reader) (n k : Nat) : (r.skip n).peek? k = r.peek? (n + k) := by
  simp [peek?, skip]

theorem skip_skip (r : Reader) (k l : Nat) : (r.skip k).skip l = r.skip (k + l) := by
  have hlast : ((r.skip k).skip l).lastStop = (r.skip (k + l)).lastStop := by
    change stopOf (stopOf r.lastStop (r.rest.take k)) ((r.rest.drop k).take l) =
      stopOf r.lastStop (r.rest.take (k + l))
    rw [List.take_add, stopOf_append]
  simp only [skip, List.drop_drop] at hlast ⊢
  rw [hlast]

theorem length_skip_lt {r : Reader} (h : r.rest ≠ []) {n : Nat} (hn : 0 < n) :
    (r.skip n).rest.length < r.rest.length := by
  have := List.length_pos_iff.mpr h
  simp only [skip, List.length_drop]
  omega

theorem rest_ne_nil_of_peek {r : Reader} {n : Nat} {c : Char} (h : r.peek? n = some c) :
    r.rest ≠ [] := by
  intro hr
  simp [peek?, hr] at h

theorem exists_rest_of_head {r : Reader} {c : Char} (h : r.head? = some c) :
    ∃ d cs, r.rest = d :: cs ∧ d.char = c := by
  cases hrest : r.rest with
  | nil => simp [head?, peek?, hrest] at h
  | cons d cs => exact ⟨d, cs, rfl, by simpa [head?, peek?, hrest] using h⟩

theorem rest_ne_nil_of_head {r : Reader} {c : Char} (h : r.head? = some c) : r.rest ≠ [] :=
  rest_ne_nil_of_peek h

theorem report_errors_ne_nil (r : Reader) (fault : PatternFault) (span : Span) :
    (r.report fault span).errors ≠ [] := by
  simp [report]

/-- A reader of `chars` whose remaining characters follow what it has read. -/
structure Stands (chars : List SourceChar) (r : Reader) : Prop where
  suffix : r.rest <:+ chars
  tiled : Tiled r.lastStop r.rest r.stop

namespace Stands

variable {chars : List SourceChar} {r r' : Reader}

theorem advance (hr : Stands chars r) (h : Advances r r') : Stands chars r' := by
  obtain ⟨cs, hrest, hlast⟩ := h.reads
  refine ⟨h.suffix.trans hr.suffix, ?_⟩
  have ht := hr.tiled
  rw [hrest, tiled_append, ← hlast, ← h.stop] at ht
  exact ht.2

theorem offset_eq (hr : Stands chars r) : r.offset = r.lastStop := by
  have ht := hr.tiled
  unfold offset
  cases h : r.rest with
  | nil =>
    rw [h] at ht
    exact ht.symm
  | cons c cs =>
    rw [h] at ht
    exact ht.1

theorem tiled_take (hr : Stands chars r) (n : Nat) :
    Tiled r.lastStop (r.rest.take n) (r.skip n).lastStop := by
  have ht := hr.tiled
  rw [← List.take_append_drop n r.rest, tiled_append] at ht
  exact ht.1

theorem lastStop_le (hr : Stands chars r) (h : Advances r r') : r.lastStop ≤ r'.lastStop := by
  obtain ⟨cs, hrest, hlast⟩ := h.reads
  have ht := hr.tiled
  rw [hrest, tiled_append, ← hlast] at ht
  exact ht.1.le

/-- What was read since a place has the stretch from there. -/
theorem spanFrom_eq (hr : Stands chars r) (h : Advances r r') :
    r'.spanFrom r.lastStop = ⟨r.lastStop, r'.lastStop⟩ := by
  rw [spanFrom, Nat.max_eq_left (hr.lastStop_le h)]

/-- What was read after a first character has the stretch from there. -/
theorem spanFrom_of_skip (hr : Stands chars r) (hne : r.rest ≠ []) (h : Advances (r.skip 1) r') :
    r'.spanFrom r.lastStop = ⟨r.lastStop, r'.lastStop⟩ ∧ r'.rest.length < r.rest.length :=
  ⟨hr.spanFrom_eq ((Advances.skip r 1).trans h),
    Nat.lt_of_le_of_lt h.length_le (length_skip_lt hne Nat.one_pos)⟩

theorem currentSpan_eq (hr : Stands chars r) (hne : r.rest ≠ []) :
    r.currentSpan = ⟨r.lastStop, (r.skip 1).lastStop⟩ := by
  obtain ⟨c, cs, hc⟩ := List.exists_cons_of_ne_nil hne
  have ht := hr.tiled
  rw [hc] at ht
  simp [currentSpan, skip, hc, ← ht.1]

end Stands

end Reader

namespace Reading

open Reader

variable {α β : Type} {r : Reader}

theorem bind_eq {x : Reading α} {k : α → Reading β} {a : α} {r' : Reader} (h : x r = (a, r')) :
    (x >>= k) r = k a r' := by
  change k (x r).1 (x r).2 = _
  rw [h]

theorem eat_eq (r : Reader) (c : Char) :
    eat c r = if r.sees c then (true, r.skip 1) else (false, r) := by
  change (if r.sees c then _ else _ : Reading Bool) r = _
  split <;> rfl

/-- The computation reads on from `r`, and if no fault has been noted, `Q` holds of its result
and of the reader afterwards. -/
def Does (r : Reader) (x : Reading α) (Q : α → Reader → Prop) : Prop :=
  Advances r (x r).2 ∧ ((x r).2.errors = [] → Q (x r).1 (x r).2)

/-- A relation between readers that reading characters and noting faults never leave. -/
class ReadingOrder (R : Reader → Reader → Prop) : Prop where
  refl (r : Reader) : R r r
  trans {r r' r'' : Reader} : R r r' → R r' r'' → R r r''
  skip (r : Reader) (n : Nat) : R r (r.skip n)
  report (r : Reader) (fault : PatternFault) (span : Span) : R r (r.report fault span)

instance : ReadingOrder Advances := ⟨.refl, .trans, .skip, .report⟩

/-- The computation takes each reader to one that the relation allows after it. -/
def MovesIn (R : Reader → Reader → Prop) (x : Reading α) : Prop :=
  ∀ r, R r (x r).2

abbrev Moves (x : Reading α) : Prop :=
  MovesIn Advances x

namespace MovesIn

variable {R : Reader → Reader → Prop} {x y : Reading α} {f : α → Reading β}

theorem ite {p : Prop} [Decidable p] (hx : MovesIn R x) (hy : MovesIn R y) :
    MovesIn R (if p then x else y) := by
  split
  · exact hx
  · exact hy

variable [ReadingOrder R]

theorem pure (a : α) : MovesIn R (pure a : Reading α) := fun r => ReadingOrder.refl r

theorem bind (hx : MovesIn R x) (hf : ∀ a, MovesIn R (f a)) : MovesIn R (x >>= f) :=
  fun r => ReadingOrder.trans (hx r) (hf _ _)

theorem get : MovesIn R (get : Reading Reader) := fun r => ReadingOrder.refl r

theorem getSkip (n : Reader → Nat) {k : Reader → Reading β} (hk : ∀ r, MovesIn R (k r)) :
    MovesIn R (do
      let r ← MonadState.get
      set (r.skip (n r))
      k r) :=
  fun r => ReadingOrder.trans (ReadingOrder.skip r (n r)) (hk r _)

theorem skip (n : Nat) : MovesIn R (skip n) := fun r => ReadingOrder.skip r n

theorem report (fault : PatternFault) (span : Span) : MovesIn R (report fault span) :=
  fun r => ReadingOrder.report r fault span

theorem reportFrom (fault : PatternFault) (start : Nat) : MovesIn R (reportFrom fault start) :=
  fun r => ReadingOrder.report r fault _

theorem expected (what : PatternExpectation) : MovesIn R (expected what) :=
  fun r => ReadingOrder.report r _ _

theorem next? : MovesIn R next? := fun r => ReadingOrder.skip r 1

theorem takeRun (p : Char → Bool) : MovesIn R (takeRun p) := fun r => ReadingOrder.skip r _

theorem spanFrom (start : Nat) : MovesIn R (spanFrom start) := fun r => ReadingOrder.refl r

theorem plainCharacter (c : Char) : MovesIn R (plainCharacter c) := fun r => ReadingOrder.skip r 1

theorem eat (c : Char) : MovesIn R (eat c) := by
  intro r
  unfold Reading.eat
  change R r ((if r.sees c then _ else _ : Reading Bool) r).2
  split
  · exact ReadingOrder.skip r 1
  · exact ReadingOrder.refl r

theorem expect (c : Char) : MovesIn R (expect c) :=
  bind (eat c) fun _ => ite (pure _) (bind (expected _) fun _ => pure _)

theorem skipExtended : MovesIn R skipExtended := by
  intro r
  change R r ((if r.flags.extended then _ else _ : Reading Unit) r).2
  split
  · exact ReadingOrder.skip r _
  · exact ReadingOrder.refl r

end MovesIn

namespace Does

variable {x : Reading α} {P Q : α → Reader → Prop} {R : β → Reader → Prop}

theorem imp (h : Does r x P) (hpq : ∀ a r', Advances r r' → P a r' → Q a r') : Does r x Q :=
  ⟨h.1, fun he => hpq _ _ h.1 (h.2 he)⟩

theorem run (h : Does r x P) : Does r x fun a r' => x r = (a, r') ∧ P a r' :=
  ⟨h.1, fun he => ⟨rfl, h.2 he⟩⟩

theorem pure {a : α} (h : r.errors = [] → Q a r) : Does r (pure a) Q :=
  ⟨.refl r, h⟩

theorem bind {f : α → Reading β} (hx : Does r x P)
    (hf : ∀ a r', Advances r r' → Does r' (f a) fun b r'' => P a r' → R b r'') :
    Does r (x >>= f) R := by
  have h := hf (x r).1 (x r).2 hx.1
  exact ⟨hx.1.trans h.1, fun he => h.2 he (hx.2 (h.1.errors_eq_nil he))⟩

theorem moves {f : α → Reading β} (hx : x.Moves)
    (hf : ∀ a r', Advances r r' → Does r' (f a) R) : Does r (x >>= f) R :=
  bind (P := fun _ _ => True) ⟨hx r, fun _ => trivial⟩ fun a r' h => (hf a r' h).imp fun _ _ _ h _ => h

/-- After a fault there is nothing to show. -/
theorem faulty {f : α → Reading β} (hx : x.Moves) (he : (x r).2.errors ≠ [])
    (hf : ∀ a, (f a).Moves) : Does r (x >>= f) R :=
  ⟨(hx.bind hf) r, fun h => (he ((hf _ _).errors_eq_nil h)).elim⟩

theorem expected {what : PatternExpectation} {f : Unit → Reading β} (hf : (f ()).Moves) :
    Does r (expected what >>= f) R :=
  faulty (.expected what) (report_errors_ne_nil r _ _) fun _ => hf

theorem reportFrom {fault : PatternFault} {start : Nat} {f : Unit → Reading β}
    (hf : (f ()).Moves) : Does r (reportFrom fault start >>= f) R :=
  faulty (.reportFrom fault start) (report_errors_ne_nil r _ _) fun _ => hf

theorem get {f : Reader → Reading β} (h : Does r (f r) R) : Does r (get >>= f) R := h

theorem skip {n : Nat} {f : Unit → Reading β} (h : Does (r.skip n) (f ()) R) :
    Does r (skip n >>= f) R :=
  ⟨(Advances.skip r n).trans h.1, h.2⟩

theorem set {r' : Reader} {f : PUnit → Reading β} (hr : Advances r r') (h : Does r' (f ⟨⟩) R) :
    Does r (set r' >>= f) R :=
  ⟨hr.trans h.1, h.2⟩

theorem spanFrom {start : Nat} {f : Span → Reading β} (h : Does r (f (r.spanFrom start)) R) :
    Does r (spanFrom start >>= f) R := h

theorem next? {f : Option Char → Reading β} (h : Does (r.skip 1) (f r.head?) R) :
    Does r (next? >>= f) R :=
  ⟨(Advances.skip r 1).trans h.1, h.2⟩

theorem eat {c : Char} {f : Bool → Reading β} (hyes : r.sees c → Does (r.skip 1) (f true) R)
    (hno : ¬ r.sees c → Does r (f false) R) : Does r (eat c >>= f) R := by
  have hbind : (Reading.eat c >>= f) r = f (Reading.eat c r).1 (Reading.eat c r).2 := rfl
  unfold Does
  rw [hbind, eat_eq]
  split
  · exact skip (f := fun _ => f true) (hyes ‹_›)
  · exact hno ‹_›

theorem expect (c : Char) : Does r (expect c) fun found _ => found = true := by
  refine moves (.eat c) fun found r' _ => ?_
  split
  · exact pure fun _ => rfl
  · exact expected (.pure _)

end Does

/-- From every reader the computation reads on, and its result satisfies `Q`. Where `clean` holds,
no fault has been noted by then. -/
def Forms (clean : Prop) (x : Reading α) (Q : α → Prop) : Prop :=
  ∀ r, Advances r (x r).2 ∧ ((clean → (x r).2.errors = []) → Q (x r).1)

namespace Forms

variable {clean : Prop} {x : Reading α} {P Q : α → Prop} {R : β → Prop}

theorem pure {a : α} (h : Q a) : Forms clean (pure a) Q := fun r => ⟨.refl r, fun _ => h⟩

theorem bind {f : α → Reading β} (hx : Forms clean x P)
    (hf : ∀ a, Forms clean (f a) fun b => P a → R b) : Forms clean (x >>= f) R := by
  intro r
  have h := hf (x r).1 (x r).2
  have hfirst : (clean → (f (x r).1 (x r).2).2.errors = []) → clean → (x r).2.errors = [] :=
    fun he hc => h.1.errors_eq_nil (he hc)
  exact ⟨(hx r).1.trans h.1, fun he => h.2 he ((hx r).2 (hfirst he))⟩

theorem imp (h : Forms clean x P) (hpq : ∀ a, P a → Q a) : Forms clean x Q := fun r =>
  ⟨(h r).1, fun he => hpq _ ((h r).2 he)⟩

theorem moves {f : α → Reading β} (hx : x.Moves) (hf : ∀ a, Forms clean (f a) R) :
    Forms clean (x >>= f) R :=
  bind (P := fun _ => True) (fun r => ⟨hx r, fun _ => trivial⟩) fun a => (hf a).imp fun _ h _ => h

theorem get {f : Reader → Reading β} (h : ∀ r, Forms clean (f r) R) :
    Forms clean (get >>= f) R :=
  moves .get h

theorem does (h : Forms True x Q) : Does r x fun a _ => Q a :=
  ⟨(h r).1, fun he => (h r).2 fun _ => he⟩

theorem of_does (h : ∀ r, Does r x fun a _ => Q a) : Forms clean x fun a => clean → Q a :=
  fun r => ⟨(h r).1, fun he hc => (h r).2 (he hc)⟩

end Forms

end Reading

end PhpSyntax.Pattern
