import Mathlib.Data.List.Basic
import Mathlib.Data.Option.Basic
import PhpSyntax.Pattern.SourceChar

namespace PhpSyntax

namespace Literal

theorem length_takeWhile_take_le (p : Char → Bool) (n : Nat) (cs : List Char) :
    ((cs.take n).takeWhile p).length ≤ cs.length :=
  Nat.le_trans (List.takeWhile_sublist _).length_le (List.take_sublist _ _).length_le

theorem hexEscape_length {cs : List Char} {c : Char} {n : Nat} (h : hexEscape? cs = some (c, n)) :
    n ≤ cs.length := by
  simp only [hexEscape?, bind, Option.bind_eq_some_iff] at h
  obtain ⟨d, -, h⟩ := h
  cases h
  exact length_takeWhile_take_le _ 2 cs

theorem octalEscape_length {cs : List Char} {c : Char} {n : Nat}
    (h : octalEscape? cs = some (c, n)) : n ≤ cs.length := by
  simp only [octalEscape?, bind, Option.bind_eq_some_iff] at h
  obtain ⟨value, -, d, -, h⟩ := h
  cases h
  exact length_takeWhile_take_le _ 3 cs

theorem bracedEscape_length {cs : List Char} {c : Char} {n : Nat}
    (h : bracedEscape? cs = some (c, n)) : n ≤ cs.length := by
  unfold bracedEscape? at h
  split at h
  · rename_i cs
    obtain ⟨⟨⟩, hguard, h⟩ := Option.bind_eq_some_iff.mp h
    obtain ⟨d, -, h⟩ := Option.bind_eq_some_iff.mp h
    cases h
    have hhead := (Option.guard_eq_some' ()).mp hguard
    have hclose : (cs.drop (cs.takeWhile (Text.isDigitBelow 16)).length).length ≠ 0 := by
      intro h0
      rw [List.eq_nil_of_length_eq_zero h0] at hhead
      simp at hhead
    rw [List.length_drop] at hclose
    simp only [List.length_cons]
    omega
  · simp at h

theorem escape_length {cs : List Char} {c : Char} {n : Nat} (h : escape? cs = some (c, n)) :
    n ≤ cs.length := by
  cases cs with
  | nil => simp [escape?] at h
  | cons d cs =>
    rw [escape?] at h
    split at h
    · cases h
      simp
    split at h
    · obtain ⟨⟨e, m⟩, hm, h⟩ := Option.map_eq_some_iff.mp h
      cases h
      exact Nat.succ_le_succ (hexEscape_length hm)
    split at h
    · obtain ⟨⟨e, m⟩, hm, h⟩ := Option.map_eq_some_iff.mp h
      cases h
      exact Nat.succ_le_succ (bracedEscape_length hm)
    · exact octalEscape_length h

end Literal

namespace Pattern

/-- The characters were written one after the other, from one offset to another. -/
def Tiled (start : Nat) : List SourceChar → Nat → Prop
  | [], stop => start = stop
  | c :: cs, stop => c.span.start = start ∧ start < c.span.stop ∧ Tiled c.span.stop cs stop

/-- The offset after characters, of which the first would start at `start`. -/
def stopOf (start : Nat) (cs : List SourceChar) : Nat :=
  (cs.getLast?.map (·.span.stop)).getD start

@[simp]
theorem stopOf_nil (start : Nat) : stopOf start [] = start := rfl

theorem stopOf_cons (start : Nat) (c : SourceChar) (cs : List SourceChar) :
    stopOf start (c :: cs) = stopOf c.span.stop cs := by
  cases h : cs.getLast? <;> simp [stopOf, List.getLast?_cons, h]

theorem stopOf_append (start : Nat) (cs ds : List SourceChar) :
    stopOf start (cs ++ ds) = stopOf (stopOf start cs) ds := by
  induction cs generalizing start with
  | nil => rfl
  | cons c cs ih => rw [List.cons_append, stopOf_cons, stopOf_cons, ih]

theorem tiled_append {start stop : Nat} {cs ds : List SourceChar} :
    Tiled start (cs ++ ds) stop ↔ Tiled start cs (stopOf start cs) ∧ Tiled (stopOf start cs) ds stop := by
  induction cs generalizing start with
  | nil => simp [Tiled]
  | cons c cs ih =>
    simp only [List.cons_append, Tiled, stopOf_cons, ih]
    tauto

theorem Tiled.le {start stop : Nat} {cs : List SourceChar} (h : Tiled start cs stop) :
    start ≤ stop := by
  induction cs generalizing start with
  | nil => exact Nat.le_of_eq h
  | cons c cs ih =>
    have := ih h.2.2
    have := h.2.1
    omega

theorem Tiled.lt {start stop : Nat} {cs : List SourceChar} (h : Tiled start cs stop)
    (hne : cs ≠ []) : start < stop := by
  cases cs with
  | nil => exact (hne rfl).elim
  | cons c cs => exact Nat.lt_of_lt_of_le h.2.1 h.2.2.le

theorem Tiled.stopOf_eq {start stop : Nat} {cs : List SourceChar} (h : Tiled start cs stop) :
    stopOf start cs = stop := by
  induction cs generalizing start with
  | nil => exact h
  | cons c cs ih => rw [stopOf_cons, ih h.2.2]

theorem Tiled.unique {a b a' b' : Nat} {cs : List SourceChar} (h : Tiled a cs b)
    (h' : Tiled a' cs b') (hne : cs ≠ []) : a = a' ∧ b = b' := by
  cases cs with
  | nil => exact (hne rfl).elim
  | cons c cs => exact ⟨h.1.symm.trans h'.1, h.2.2.stopOf_eq.symm.trans h'.2.2.stopOf_eq⟩

/-- Some of the characters end before all of them do. -/
theorem Tiled.stop_le {start stop a b : Nat} {pre cs post : List SourceChar}
    (h : Tiled start (pre ++ cs ++ post) stop) (hcs : Tiled a cs b) (hne : cs ≠ []) : b ≤ stop := by
  rw [List.append_assoc, tiled_append, tiled_append] at h
  obtain ⟨-, rfl⟩ := hcs.unique h.2.1 hne
  exact h.2.2.le

theorem Tiled.mem {start stop : Nat} {cs : List SourceChar} (h : Tiled start cs stop) :
    ∀ c ∈ cs, start ≤ c.span.start ∧ c.span.start < c.span.stop ∧ c.span.stop ≤ stop := by
  induction cs generalizing start with
  | nil => nofun
  | cons c cs ih =>
    obtain ⟨rfl, hlt, ht⟩ := h
    refine List.forall_mem_cons.mpr ⟨⟨Nat.le_refl _, hlt, ht.le⟩, fun d hd => ?_⟩
    have := ih ht d hd
    omega

theorem Tiled.ordered {start stop : Nat} {cs : List SourceChar} (h : Tiled start cs stop) :
    cs.Pairwise fun a b => a.span.stop ≤ b.span.start := by
  induction cs generalizing start with
  | nil => exact .nil
  | cons c cs ih => exact .cons (fun d hd => (h.2.2.mem d hd).1) (ih h.2.2)

def rawText (text : List Char) (cs : List SourceChar) : List Char :=
  cs.flatMap fun c => text.extract c.span.start c.span.stop

theorem extract_append_extract (text : List Char) {a b c : Nat} (hab : a ≤ b) (hbc : b ≤ c) :
    text.extract a b ++ text.extract b c = text.extract a c := by
  have hdrop : text.drop b = (text.drop a).drop (b - a) := by
    rw [List.drop_drop, Nat.add_sub_cancel' hab]
  have hlen : c - a = (b - a) + (c - b) := by omega
  simp only [List.extract_eq_take_drop]
  rw [hlen, List.take_add, hdrop]

theorem extract_of_append {lead text : List Char} {a b : Nat} (hb : b ≤ text.length)
    (tail : List Char) :
    (lead ++ (text ++ tail)).extract (lead.length + a) (lead.length + b) = text.extract a b := by
  simp only [List.extract_eq_take_drop, List.drop_length_add_append, Nat.add_sub_add_left]
  rw [List.drop_append, List.take_append_of_le_length]
  rw [List.length_drop]
  omega

theorem Tiled.rawText_eq {start stop : Nat} {cs : List SourceChar} (h : Tiled start cs stop)
    (text : List Char) : rawText text cs = text.extract start stop := by
  induction cs generalizing start with
  | nil =>
    obtain rfl : start = stop := h
    simp [rawText]
  | cons c cs ih =>
    obtain ⟨rfl, hlt, ht⟩ := h
    rw [← extract_append_extract text (Nat.le_of_lt hlt) ht.le, ← ih ht]
    rfl

theorem decodeHead_length (quote : Literal.Quote) (c : Char) (cs : List Char) :
    0 < (decodeHead quote c cs).2 ∧ (decodeHead quote c cs).2 ≤ cs.length + 1 := by
  unfold decodeHead
  split
  · cases quote with
    | single =>
      dsimp only
      split
      · rename_i h
        obtain ⟨rest, rfl⟩ := List.head?_eq_some_iff.mp h
        simp
      · rename_i h
        obtain ⟨rest, rfl⟩ := List.head?_eq_some_iff.mp h
        simp
      · simp
    | double =>
      dsimp only
      split
      · rename_i d n h
        have := Literal.escape_length h
        simp only
        omega
      · simp
  · simp

theorem decodeFrom_tiled (quote : Literal.Quote) (offset : Nat) (cs : List Char) :
    Tiled offset (decodeFrom quote offset cs) (offset + cs.length) := by
  induction offset, cs using decodeFrom.induct quote with
  | case1 offset => simp [decodeFrom, Tiled]
  | case2 offset c cs decoded n hd ih =>
    have hn := decodeHead_length quote c cs
    rw [hd] at hn
    simp only at hn
    rw [decodeFrom, hd]
    refine ⟨rfl, by simp only; omega, ?_⟩
    convert ih using 1
    simp only [List.length_cons, List.length_drop]
    omega

end Pattern

end PhpSyntax
