import PhpSyntax.Proofs.Pattern.Bracket.Patterns

/-!
Texts with a closing bracket at the start of a class. A range is told only after members that are
read in the loop over a class, and the bracket that comes first is read before it.
-/

namespace PhpSyntax.Pattern

open Reading Reader

/-- The same place in a text that has one more character after the one at `k`. -/
def widen (k : Nat) : ℕ →o ℕ where
  toFun n := if n ≤ k then n else n + 1
  monotone' m n h := by
    dsimp only
    split <;> split <;> omega

theorem widen_le {k n : Nat} (h : n ≤ k) : widen k n = n :=
  if_pos h

theorem widen_lt {k n : Nat} (h : k < n) : widen k n = n + 1 :=
  if_neg (Nat.not_le_of_lt h)

def charsAt (start : Nat) (cs : List Char) : List SourceChar :=
  (cs.zipIdx start).map fun (c, i) => ⟨c, ⟨i, i + 1⟩⟩

theorem charsAt_append (start : Nat) (cs ds : List Char) :
    charsAt start (cs ++ ds) = charsAt start cs ++ charsAt (start + cs.length) ds := by
  simp [charsAt, List.zipIdx_append]

theorem charsAt_cons (start : Nat) (c : Char) (cs : List Char) :
    charsAt start (c :: cs) = ⟨c, ⟨start, start + 1⟩⟩ :: charsAt (start + 1) cs := by
  simp [charsAt]

theorem charsAt_widen_le {start k : Nat} {cs : List Char} (h : start + cs.length ≤ k) :
    (charsAt start cs).map (·.move (widen k)) = charsAt start cs := by
  induction cs generalizing start with
  | nil => rfl
  | cons c cs ih =>
    rw [List.length_cons] at h
    rw [charsAt_cons, List.map_cons, ih (by omega)]
    change (⟨c, ⟨widen k start, widen k (start + 1)⟩⟩ : SourceChar) :: _ = _
    rw [widen_le (by omega), widen_le (by omega)]

theorem charsAt_widen_lt {start k : Nat} (h : k < start) (cs : List Char) :
    (charsAt start cs).map (·.move (widen k)) = charsAt (start + 1) cs := by
  induction cs generalizing start with
  | nil => rfl
  | cons c cs ih =>
    rw [charsAt_cons, List.map_cons, ih (by omega), charsAt_cons]
    change (⟨c, ⟨widen k start, widen k (start + 1)⟩⟩ : SourceChar) :: _ = _
    rw [widen_lt h, widen_lt (by omega)]

theorem plainChars_append (front back : String) :
    plainChars (front ++ back) = plainChars front ++ charsAt front.length back.toList := by
  change charsAt 0 (front ++ back).toList = charsAt 0 front.toList ++ _
  rw [String.toList_append, charsAt_append, Nat.zero_add, String.length_toList]

theorem plainChars_length (text : String) : (plainChars text).length = text.length := by
  rw [plainChars, List.length_map, List.length_zipIdx, String.length_toList]

theorem ofChars_plainChars (text : String) (flags : Flags) :
    Reader.ofChars (plainChars text) flags = ⟨plainChars text, text.length, flags, 0, [], 0⟩ := by
  have hstop : (Reader.ofChars (plainChars text) flags).stop = text.length :=
    (plainChars_tiled text).stopOf_eq.trans (plainChars_length text)
  rw [← hstop]
  rfl

/-- A text with a closing bracket in it, and the same text with the bracket escaped. -/
theorem ofChars_escaped (front x : String) (flags : Flags) :
    Reader.ofChars (plainChars (front ++ ("\\]" ++ x))) flags =
      (Reader.ofChars (plainChars (front ++ ("]" ++ x))) flags).escapeAt (widen front.length)
        ⟨front.length, front.length + 1⟩ ⟨front.length + 1, front.length + 2⟩ front.length := by
  have hfront : (plainChars front).map (·.move (widen front.length)) = plainChars front :=
    charsAt_widen_le (by rw [Nat.zero_add, String.length_toList])
  have hback := charsAt_widen_lt (Nat.lt_succ_self front.length) x.toList
  have hlength : (front ++ ("]" ++ x)).length = front.length + (1 + x.length) := by
    rw [String.length_append, String.length_append]
    rfl
  have hlength' : (front ++ ("\\]" ++ x)).length = front.length + (1 + x.length) + 1 := by
    rw [String.length_append, String.length_append, show "\\]".length = 2 from rfl]
    omega
  have hstop : widen front.length (front.length + (1 + x.length)) =
      front.length + (1 + x.length) + 1 := widen_lt (by omega)
  rw [ofChars_plainChars, ofChars_plainChars, plainChars_append, plainChars_append, hlength,
    hlength', ← hstop]
  refine congrArg (Reader.mk · _ _ _ _ _) ?_
  rw [List.take_left' (plainChars_length front), List.drop_append, plainChars_length, hfront]
  simp [charsAt_cons, hback, plainChars_length]

def classOpening (negated : Bool) : String :=
  if negated then "[^" else "["

theorem classOpening_length (negated : Bool) :
    (classOpening negated).length = negated.toNat + 1 := by
  cases negated <;> rfl

section OfChars

variable (front back : String) (flags : Flags)

theorem peek_ofChars (n : Nat) :
    (Reader.ofChars (plainChars back) flags).peek? n = back.toList[n]? := by
  simp only [peek?, Reader.ofChars, plainChars, List.getElem?_map, List.getElem?_zipIdx]
  cases back.toList[n]? <;> rfl

theorem peek_skip_ofChars (n : Nat) :
    ((Reader.ofChars (plainChars (front ++ back)) flags).skip front.length).peek? n =
      (Reader.ofChars (plainChars back) flags).peek? n := by
  rw [peek_skip, peek_ofChars, peek_ofChars, String.toList_append, ← String.length_toList,
    List.getElem?_append_right (Nat.le_add_right ..), Nat.add_sub_cancel_left]

theorem seesRange_skip_ofChars :
    ((Reader.ofChars (plainChars (front ++ back)) flags).skip front.length).seesRange =
      (Reader.ofChars (plainChars back) flags).seesRange := by
  have hhead : ((Reader.ofChars (plainChars (front ++ back)) flags).skip front.length).head? =
      (Reader.ofChars (plainChars back) flags).head? := peek_skip_ofChars front back flags 0
  simp only [seesRange, sees, hhead, peek_skip_ofChars]

theorem rest_skip_ofChars :
    ((Reader.ofChars (plainChars (front ++ back)) flags).skip front.length).rest =
      charsAt front.length back.toList := by
  rw [ofChars_plainChars, plainChars_append]
  exact List.drop_left' (plainChars_length front)

end OfChars

theorem seesBracket_of_rest {r : Reader} {k : Nat} {cs : List SourceChar}
    (hrest : r.rest = ⟨']', ⟨k, k + 1⟩⟩ :: cs) :
    r.SeesBracket (widen k) ⟨k, k + 1⟩ ⟨k + 1, k + 2⟩ where
  sees := by simp [sees, head?, peek?, hrest]
  le := by simp [offset, Reader.skip, hrest]
  start := by simp [offset, hrest, widen_le]
  stop := by simp [Reader.skip, hrest, widen_lt]

theorem opensBracket_ofChars (negated : Bool) (x : String) (flags : Flags) :
    (Reader.ofChars (plainChars (classOpening negated ++ ("]" ++ x))) flags).OpensBracket
      (widen (negated.toNat + 1)) ⟨negated.toNat + 1, negated.toNat + 2⟩
      ⟨negated.toNat + 2, negated.toNat + 3⟩ negated where
  opening := by
    rw [head?, peek_ofChars, String.toList_append]
    cases negated <;> rfl
  caret h := by
    rw [peek_ofChars, String.toList_append, h]
    rfl
  bracket := by
    have hrest := rest_skip_ofChars (classOpening negated) ("]" ++ x) flags
    rw [String.toList_append, show "]".toList = [']'] from rfl, List.singleton_append,
      charsAt_cons, classOpening_length] at hrest
    exact seesBracket_of_rest hrest

theorem seesRange_classOpening (negated : Bool) (x : String) (flags : Flags) :
    ((Reader.ofChars (plainChars (classOpening negated ++ ("]" ++ x))) flags).skip
      (negated.toNat + 2)).seesRange = (Reader.ofChars (plainChars x) flags).seesRange := by
  have hlength : (classOpening negated ++ "]").length = negated.toNat + 2 := by
    rw [String.length_append, classOpening_length]
    rfl
  rw [← seesRange_skip_ofChars (classOpening negated ++ "]") x, hlength, String.append_assoc]

theorem escaped_length (front x : String) :
    (plainChars (front ++ ("\\]" ++ x))).length =
      (plainChars (front ++ ("]" ++ x))).length + 1 := by
  have hbracket : "]".length = 1 := rfl
  have hescaped : "\\]".length = 2 := rfl
  simp only [plainChars_length, String.length_append]
  omega

theorem parsePattern_eq (text : String) (flags : Flags) :
    parsePattern text flags =
      ⟨(pattern (plainChars text) (.ofChars (plainChars text) flags)).1,
        (pattern (plainChars text) (.ofChars (plainChars text) flags)).2.errors, flags⟩ := by
  rw [parsePattern, parseChars]
  rfl

/-- A closing bracket that comes first in a class is read as an escaped one, unless it starts a
range when it is escaped. Then the two are never read alike. -/
theorem parsePattern_leadingBracket (negated : Bool) (x : String) (flags : Flags) :
    if (Reader.ofChars (plainChars x) flags).seesRange then
      ∀ g g', (parsePattern (classOpening negated ++ "\\]" ++ x) flags).tree.move g ≠
        (parsePattern (classOpening negated ++ "]" ++ x) flags).tree.move g'
    else
      parsePattern (classOpening negated ++ "\\]" ++ x) flags =
        (parsePattern (classOpening negated ++ "]" ++ x) flags).move
          (widen (classOpening negated).length) := by
  have hopens := opensBracket_ofChars negated x flags
  have hrange := seesRange_classOpening negated x flags
  have hlength := escaped_length (classOpening negated) x
  have hrest : (Reader.ofChars (plainChars (classOpening negated ++ ("]" ++ x)))
      flags).rest.length = (plainChars (classOpening negated ++ ("]" ++ x))).length := rfl
  rw [String.append_assoc, String.append_assoc, parsePattern_eq, parsePattern_eq, ofChars_escaped,
    classOpening_length, ← hrange]
  split
  · dsimp only
    exact pattern_differ hopens hrest hlength ‹_›
  · rw [pattern_meets hopens hrest hlength ‹_›]
    rfl

/-- Escaped, the bracket starts a range of its own. Otherwise it is one of three characters. -/
theorem parsePattern_leadingBracket_hyphen :
    (parsePattern "[\\]-a]" .empty).errors = [] ∧ (parsePattern "[]-a]" .empty).errors = [] ∧
      ∀ g g', (parsePattern "[\\]-a]" .empty).tree.move g ≠
        (parsePattern "[]-a]" .empty).tree.move g' := by
  have hescaped : parsePattern "[\\]-a]" .empty =
      ⟨.characterClass ⟨false, ⟨[.range ⟨⟨93, ⟨1, 3⟩⟩, ⟨97, ⟨4, 5⟩⟩, ⟨1, 5⟩⟩], .empty, ⟨1, 5⟩⟩,
        ⟨0, 6⟩⟩, [], .empty⟩ := rfl
  have hliteral : parsePattern "[]-a]" .empty =
      ⟨.characterClass ⟨false, ⟨[.character ⟨93, ⟨1, 2⟩⟩, .character ⟨45, ⟨2, 3⟩⟩,
        .character ⟨97, ⟨3, 4⟩⟩], .empty, ⟨1, 4⟩⟩, ⟨0, 5⟩⟩, [], .empty⟩ := rfl
  rw [hescaped, hliteral]
  refine ⟨rfl, rfl, fun g g' h => ?_⟩
  simp [moveClass, moveUnion] at h

end PhpSyntax.Pattern
