import PhpSyntax.Proofs.Pattern.Bracket.Members
import PhpSyntax.Proofs.Pattern.Moved.Readings

namespace PhpSyntax.Pattern

namespace Reader

/-- The reader of the same characters, written somewhere else, with the one `k` places ahead written
as an escaped bracket at two stretches. -/
def escapeAt (f : Nat → Nat) (s s' : Span) (k : Nat) (r : Reader) : Reader :=
  { r.move f with
    rest := (r.rest.take k).map (·.move f) ++
      ⟨'\\', s⟩ :: ⟨']', s'⟩ :: (r.rest.drop (k + 1)).map (·.move f) }

theorem seesMember_escaped (f : Nat → Nat) (s s' : Span) (r : Reader) :
    (r.escapeAt f s s' 0).SeesMember := by
  have hhead : (r.escapeAt f s s' 0).head? = some '\\' := rfl
  have hpeek : (r.escapeAt f s s' 0).peek? 1 = some ']' := rfl
  constructor <;> simp [hhead, hpeek]
  decide

/-- A closing bracket comes next, and the two stretches go from where it starts to where it
stops. -/
structure SeesBracket (f : Nat → Nat) (s s' : Span) (r : Reader) : Prop where
  sees : r.sees ']'
  le : r.offset ≤ (r.skip 1).lastStop
  start : s.start = f r.offset
  stop : s'.stop = f (r.skip 1).lastStop

def bracket (r : Reader) : Character :=
  ⟨(']' : Char).toNat, r.currentSpan⟩

variable {f : ℕ →o ℕ} {s s' : Span} {r : Reader}

theorem escapeAt_skip (k : Nat) (hne : r.rest ≠ []) :
    (r.escapeAt f s s' (k + 1)).skip 1 = (r.skip 1).escapeAt f s s' k := by
  obtain ⟨c, cs, hrest⟩ := List.exists_cons_of_ne_nil hne
  simp [escapeAt, skip, move, hrest, SourceChar.move, Span.move]

theorem escapeAt_head? (k : Nat) (hne : r.rest ≠ []) :
    (r.escapeAt f s s' (k + 1)).head? = r.head? := by
  obtain ⟨c, cs, hrest⟩ := List.exists_cons_of_ne_nil hne
  simp [escapeAt, head?, peek?, hrest]

theorem escapeAt_offset (k : Nat) (hne : r.rest ≠ []) :
    (r.escapeAt f s s' (k + 1)).offset = f r.offset := by
  obtain ⟨c, cs, hrest⟩ := List.exists_cons_of_ne_nil hne
  simp [escapeAt, offset, hrest, SourceChar.move, Span.move]

theorem escapeAt_length {k : Nat} (hk : k < r.rest.length) :
    (r.escapeAt f s s' k).rest.length = r.rest.length + 1 := by
  simp only [escapeAt, List.length_append, List.length_cons, List.length_map, List.length_take,
    List.length_drop]
  omega

theorem escapeAt_zero_length :
    (r.escapeAt f s s' 0).rest.length = (r.skip 1).rest.length + 2 := by
  simp [escapeAt, skip]

namespace SeesBracket

variable (h : r.SeesBracket f s s')
include h

theorem rest_ne_nil : r.rest ≠ [] :=
  rest_ne_nil_of_head (of_decide_eq_true h.sees)

theorem skip_eq : (r.escapeAt f s s' 0).skip 2 = (r.skip 1).move f := by
  have hstop := h.stop
  unfold escapeAt skip move at *
  simp_all

theorem offset_eq : (r.escapeAt f s s' 0).offset = f r.offset :=
  h.start

theorem currentSpan_eq : r.currentSpan = ⟨r.offset, (r.skip 1).lastStop⟩ := by
  obtain ⟨c, cs, hrest⟩ := List.exists_cons_of_ne_nil h.rest_ne_nil
  simp [currentSpan, offset, skip, hrest]

/-- The escaped bracket has the stretch of the bracket. -/
theorem spanFrom_eq : ((r.skip 1).move f).spanFrom s.start = r.currentSpan.move f := by
  rw [h.start, move_spanFrom, h.currentSpan_eq, spanFrom, Nat.max_eq_left h.le]

end SeesBracket

/-- A class comes next whose first member is a closing bracket, and the two stretches go from where
the bracket starts to where it stops. -/
structure OpensBracket (f : Nat → Nat) (s s' : Span) (negated : Bool) (r : Reader) : Prop where
  opening : r.head? = some '['
  caret : negated → r.peek? 1 = some '^'
  bracket : (r.skip (negated.toNat + 1)).SeesBracket f s s'

namespace OpensBracket

variable {negated : Bool} (h : r.OpensBracket f s s' negated)
include h

theorem rest_ne_nil : r.rest ≠ [] :=
  rest_ne_nil_of_head h.opening

theorem eat_eq : Reading.eat '^' (r.skip 1) = (negated, r.skip (negated.toNat + 1)) := by
  have hpeek : (r.skip 1).head? = r.peek? 1 := peek_skip r 1 0
  cases negated with
  | false =>
    have hsees : (r.skip 1).sees ']' := h.bracket.sees
    have hcaret : ¬ (r.skip 1).sees '^' := by
      simp_all [sees]
    rw [Reading.eat_eq, if_neg hcaret]
    rfl
  | true =>
    have hcaret : (r.skip 1).sees '^' := decide_eq_true (hpeek.trans (h.caret rfl))
    rw [Reading.eat_eq, if_pos hcaret, skip_skip]
    rfl

theorem eat_escaped : Reading.eat '^' ((r.escapeAt f s s' (negated.toNat + 1)).skip 1) =
    (negated, (r.skip (negated.toNat + 1)).escapeAt f s s' 0) := by
  rw [escapeAt_skip _ h.rest_ne_nil]
  cases negated with
  | false => rfl
  | true =>
    have hpeek : r.peek? 1 = some '^' := h.caret rfl
    have hhead : (r.skip 1).head? = some '^' := (peek_skip r 1 0).trans hpeek
    have hne : (r.skip 1).rest ≠ [] := rest_ne_nil_of_head hhead
    have hcaret : ((r.skip 1).escapeAt f s s' 1).sees '^' :=
      decide_eq_true ((escapeAt_head? 0 hne).trans hhead)
    rw [Bool.toNat_true, Reading.eat_eq, if_pos hcaret, escapeAt_skip _ hne, skip_skip]

end OpensBracket

end Reader

namespace Reading

/-- The second computation does from `e` what the first one does from `r`: its result is that of the
first after `g`, and what it leaves is what the first one leaves, moved. -/
def Meets (f : Nat → Nat) {α β : Type} (g : α → β) (r e : Reader) (x : Reading α) (y : Reading β) :
    Prop :=
  y e = (g (x r).1, (x r).2.move f)

theorem Meets.bind {f : ℕ →o ℕ} {α β γ δ : Type} {g : α → β} {h : γ → δ} {r e : Reader}
    {x : Reading α} {y : Reading β} {k : α → Reading γ} {k' : β → Reading δ}
    (hx : Meets f g r e x y) (hk : ∀ a r', x r = (a, r') → Carries f h r' (k a) (k' (g a))) :
    Meets f h r e (x >>= k) (y >>= k') := by
  rw [Meets, bind_eq hx]
  exact hk _ _ rfl

theorem Meets.get {f : ℕ →o ℕ} {α β : Type} {g : α → β} {r e : Reader} {k : Reader → Reading α}
    {k' : Reader → Reading β} (h : Meets f g r e (k r) (k' e)) :
    Meets f g r e (MonadState.get >>= k) (MonadState.get >>= k') :=
  h

/-- A computation may be replaced by one that does the same. -/
theorem Carries.congr {f : ℕ →o ℕ} {α β : Type} {g : α → β} {r : Reader} {x x' : Reading α}
    {y : Reading β} (h : x r = x' r) (hx : Carries f g r x' y) : Carries f g r x y := by
  rw [Carries, h]
  exact hx

end Reading

end PhpSyntax.Pattern
