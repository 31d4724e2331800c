import PhpSyntax.Proofs.Pattern.Moved.Classes

namespace PhpSyntax.Pattern

open Reading

variable {f : ℕ →o ℕ} {r : Reader}

theorem setFlags_carries (change : Flags → Flags) :
    Carries f id r (modify fun r : Reader => { r with flags := change r.flags })
      (modify fun r : Reader => { r with flags := change r.flags }) := rfl

theorem withFlags_carries {α β : Type} {g : α → β} {x : Reading α} {y : Reading β}
    (change : Flags → Flags) (h : ∀ r, Carries f g r x y) :
    Carries f g r (withFlags change x) (withFlags change y) := by
  refine .get (.bind (setFlags_carries change) fun _ _ => .bind (h _) fun a _ => ?_)
  exact .bind (setFlags_carries fun _ => r.flags) fun _ _ => .pure rfl

theorem nextIndex_carries : Carries f id r nextIndex nextIndex := rfl

theorem groupName_carries (close : Char) :
    Carries f id r (groupName close) (groupName close) := by
  refine .bind (.takeRun _) fun name _ => .ite ?_ ?_
  · exact .bind (.expected _) fun _ _ => .pure rfl
  · exact .bind (.expect _) fun _ _ => .ite (.pure rfl) (.pure rfl)

theorem comment_carries : Carries f id r comment comment := by
  refine .get ?_
  rw [Reader.move_runLength]
  exact .bind (.skip _) fun _ _ => .bind (.expect _) fun _ _ => .pure rfl

theorem groupCall_carries (start : Nat) :
    Carries f (Regex.move f) r (groupCall start) (groupCall (f start)) := by
  refine .get ?_
  rw [Reader.move_runLength]
  exact .bind (.skip _) fun _ _ => .bind (.expect _) fun _ _ => .bind (.spanFrom start) fun _ _ =>
    .pure (by simp)

theorem flagLetters_move (f : Nat → Nat) (disabling : Bool) (change : FlagChange)
    (cs : List SourceChar) :
    flagLetters disabling change (cs.map (·.move f)) =
      ((flagLetters disabling change cs).1, (flagLetters disabling change cs).2.1,
        (flagLetters disabling change cs).2.2.map (·.move f)) := by
  induction cs generalizing disabling change with
  | nil => rfl
  | cons c cs ih =>
    rw [List.map_cons, flagLetters, flagLetters, SourceChar.move_char]
    by_cases hhyphen : c.char = '-' && !disabling
    · simp only [if_pos hhyphen, ih]
    simp only [if_neg hhyphen]
    by_cases halpha : c.char.isAlpha
    · simp only [if_pos halpha]
      split <;> simp only [ih, List.map_cons]
    · simp only [if_neg halpha, List.map_nil]

theorem reportUnknown_carries (unknown : List SourceChar) :
    Carries f id r
      (forIn unknown PUnit.unit fun c _ => do
        report (.unknownFlag c.char) c.span
        return ForInStep.yield PUnit.unit)
      (forIn (unknown.map (·.move f)) PUnit.unit fun c _ => do
        report (.unknownFlag c.char) c.span
        return ForInStep.yield PUnit.unit) := by
  induction unknown generalizing r with
  | nil => exact .pure rfl
  | cons c cs ih =>
    rw [List.map_cons, List.forIn_cons, List.forIn_cons]
    refine .bind (g := id) (.bind (.report _ c.span) fun _ _ => .pure rfl) fun step r => ?_
    cases step with
    | done => exact .pure rfl
    | yield => exact ih

theorem flagChange_carries : Carries f id r flagChange flagChange := by
  refine .get ?_
  rw [show flagLetters _ _ (r.move f).rest = _ from flagLetters_move f _ _ r.rest]
  generalize flagLetters false ⟨.empty, .empty⟩ r.rest = letters
  obtain ⟨change, n, unknown⟩ := letters
  exact .bind (.skip n) fun _ _ => .bind (reportUnknown_carries unknown) fun _ _ => .pure rfl

def moveBranches (f : Nat → Nat) (b : Regex × Option Regex × Option Span) :
    Regex × Option Regex × Option Span :=
  (b.1.move f, b.2.1.map (·.move f), b.2.2.map (Span.move f))

theorem branches_move (f : Nat → Nat) (tree : Regex) :
    branches (tree.move f) = moveBranches f (branches tree) := by
  match tree with
  | .disjunction (yes :: no :: more) span =>
    cases more <;> simp [branches, moveBranches]
  | .disjunction [] span | .disjunction [_] span => simp [branches, moveBranches]
  | .sequence .. | .group .. | .conditional .. | .repetition .. | .character .. | .dot ..
  | .boundary .. | .backReference .. | .escapedClass .. | .characterClass .. =>
    simp [branches, moveBranches]

structure NestedReaders.Carried (f : ℕ →o ℕ) (n : NestedReaders) : Prop where
  disjunction : ∀ r, Carries f (Regex.move f) r n.disjunction n.disjunction
  group : ∀ r, Carries f (Option.map (Regex.move f)) r n.group n.group
  brackets : ∀ r, Carries f (moveClass f) r n.brackets n.brackets

section Group

variable {n : NestedReaders} (hn : n.Carried f) (start : Nat)
include hn

theorem groupBody_carries (kind : GroupKind) (change : Flags → Flags) :
    Carries f (Regex.move f) r (groupBody n start kind change)
      (groupBody n (f start) kind change) := by
  refine .bind (withFlags_carries change hn.disjunction) fun element _ => ?_
  exact .bind (.expect _) fun _ _ => .bind (.spanFrom start) fun _ _ => .pure (by simp)

theorem someGroupBody_carries (kind : GroupKind) (change : Flags → Flags) :
    Carries f (Option.map (Regex.move f)) r
      (do return some (← groupBody n start kind change))
      (do return some (← groupBody n (f start) kind change)) :=
  .bind (groupBody_carries hn start kind change) fun _ _ => .pure rfl

theorem namedGroup_carries (close : Char) :
    Carries f (Option.map (Regex.move f)) r (namedGroup n start close)
      (namedGroup n (f start) close) := by
  refine .bind (groupName_carries close) fun name _ => ?_
  cases name with
  | some name => exact .bind nextIndex_carries fun index _ => someGroupBody_carries hn start _ _
  | none => exact .pure rfl

theorem announcedGroup_carries :
    Carries f (Option.map (Regex.move f)) r (announcedGroup n start)
      (announcedGroup n (f start)) := by
  refine .bind (.skip 1) fun _ _ => .bind .next? fun c _ => ?_
  dsimp only [id]
  split
  · exact namedGroup_carries hn start _
  · refine .bind (groupName_carries _) fun reference _ => ?_
    cases reference with
    | some reference => exact .bind (.spanFrom start) fun _ _ => .pure (by simp)
    | none => exact .pure rfl
  · refine .bind (groupName_carries _) fun reference _ => ?_
    cases reference with
    | some reference => exact .bind (.spanFrom start) fun _ _ => .pure (by simp)
    | none => exact .pure rfl
  · exact .bind (.reportFrom _ start) fun _ _ => .pure rfl

theorem flagGroup_carries :
    Carries f (Option.map (Regex.move f)) r (flagGroup n start) (flagGroup n (f start)) := by
  refine .bind flagChange_carries fun change _ => .bind (.eat _) fun closed _ => .ite ?_ ?_
  · exact .bind (setFlags_carries change.apply) fun _ _ => .bind (.spanFrom start) fun _ _ =>
      .pure (by simp)
  · refine .get ?_
    rw [Reader.move_sees]
    refine .ite (.bind (.expected _) fun _ _ => .pure rfl) ?_
    exact .bind (.skip 1) fun _ _ => someGroupBody_carries hn start _ _

theorem condition_carries : Carries f (moveCondition f) r (condition n) (condition n) := by
  refine .get ?_
  rw [Reader.move_peek?, Reader.move_offset]
  refine .ite ?_ ?_
  · refine .bind (hn.group r) fun group r' => ?_
    -- A group that looks nowhere is dropped, with its offsets.
    have hother : Carries f (moveCondition f) r' (do
        reportFrom .expectedLookaround r.offset
        return .reference "") (do
        reportFrom .expectedLookaround (f r.offset)
        return .reference "") :=
      .bind (.reportFrom _ _) fun _ _ => .pure (by rw [moveCondition])
    match group with
    | some (.group (.lookaround behind negated) (some element) span) =>
      exact .pure (by simp)
    | some (.group (.lookaround behind negated) none span) => simpa using hother
    | some (.group (.capturing ..) _ _) | some (.group (.nonCapturing _) _ _)
    | some (.group .atomic _ _) => simpa using hother
    | none => exact hother
    | some (.sequence ..) | some (.disjunction ..) | some (.conditional ..)
    | some (.repetition ..) | some (.character ..) | some (.dot ..) | some (.boundary ..)
    | some (.backReference ..) | some (.escapedClass ..) | some (.characterClass ..) =>
      simpa using hother
  · exact .bind (.skip 1) fun _ _ => .bind (.takeRun _) fun _ _ => .bind (.expect _) fun _ _ =>
      .pure (by rw [moveCondition]; rfl)

theorem conditional_carries :
    Carries f (Regex.move f) r (conditional n start) (conditional n (f start)) := by
  refine .bind (condition_carries hn) fun test _ => ?_
  refine .bind (withFlags_carries id hn.disjunction) fun body r' => ?_
  rw [branches_move]
  generalize branches body = b
  obtain ⟨yes, no, surplus⟩ := b
  have hend : ∀ r, Carries f (Regex.move f) r (do
      let _ ← expect ')'
      return Regex.conditional test yes no (← spanFrom start)) (do
      let _ ← expect ')'
      return Regex.conditional (moveCondition f test) (yes.move f) (no.map (·.move f))
        (← spanFrom (f start))) :=
    fun r => .bind (.expect _) fun _ _ => .bind (.spanFrom start) fun _ _ => .pure (by simp)
  cases surplus with
  | some span => exact .bind (.report _ span) fun _ _ => hend _
  | none => exact hend _

theorem specialGroup_carries :
    Carries f (Option.map (Regex.move f)) r (specialGroup n start) (specialGroup n (f start)) := by
  refine .get ?_
  rw [Reader.move_head?, Reader.move_peek?]
  split
  · exact .bind (.skip 1) fun _ _ => someGroupBody_carries hn start _ _
  · exact .bind (.skip 1) fun _ _ => someGroupBody_carries hn start _ _
  · exact .bind (.skip 1) fun _ _ => someGroupBody_carries hn start _ _
  · exact .bind (.skip 1) fun _ _ => someGroupBody_carries hn start _ _
  · exact .bind (.skip 2) fun _ _ => someGroupBody_carries hn start _ _
  · exact .bind (.skip 2) fun _ _ => someGroupBody_carries hn start _ _
  · exact .bind (.skip 1) fun _ _ => namedGroup_carries hn start _
  · exact .bind (.skip 1) fun _ _ => namedGroup_carries hn start _
  · exact announcedGroup_carries hn start
  · exact .bind comment_carries fun _ _ => .pure rfl
  · exact .bind (conditional_carries hn start) fun _ _ => .pure rfl
  · refine .ite (.bind (groupCall_carries start) fun _ _ => .pure rfl) (flagGroup_carries hn start)
  · exact flagGroup_carries hn start

theorem groupWith_carries :
    Carries f (Option.map (Regex.move f)) r (groupWith n) (groupWith n) := by
  refine .get ?_
  rw [Reader.move_offset]
  generalize r.offset = start
  refine .bind (.skip 1) fun _ _ => .bind (.eat _) fun special _ => ?_
  refine .ite (specialGroup_carries hn start) ?_
  exact .bind nextIndex_carries fun index _ => someGroupBody_carries hn start _ _

end Group

theorem quotedItems_carries :
    Carries f (List.map (Regex.move f)) r quotedItems quotedItems := by
  refine .bind quotation_carries fun cs _ => ?_
  rw [List.getLast?_map]
  cases cs.getLast? with
  | none => exact .pure rfl
  | some last =>
    have hlast : ∀ r, Carries f (Regex.move f) r (quantified (.character last))
        (quantified (.character (last.move f))) := by
      intro r
      simpa using quantified_carries (f := f) (r := r) (.character last)
    exact .bind (hlast _) fun item _ =>
      .pure (by simp [← List.map_dropLast, Function.comp_def])

section Sequence

variable {n : NestedReaders} (hn : n.Carried f)
include hn

theorem atom_carries : Carries f (Option.map (Regex.move f)) r (atom n) (atom n) := by
  refine .get ?_
  rw [Reader.move_head?, Reader.move_bounds?, Reader.move_offset, Reader.move_currentSpan]
  generalize r.offset = start
  dsimp only
  split
  · exact .pure rfl
  · refine .ite ?_ (.ite ?_ (.ite (groupWith_carries hn) (.ite ?_ (.ite ?_ (.ite ?_ (.ite ?_ ?_))))))
    · exact .bind (.skip 1) fun _ _ => .bind (.report _ _) fun _ _ => .pure rfl
    · exact .bind bounds_carries fun _ _ => .bind (.reportFrom _ start) fun _ _ => .pure rfl
    · exact .bind (bracketsWith_carries hn.brackets) fun _ _ => .pure (by simp)
    · exact .bind (.skip 1) fun _ _ => .bind (.spanFrom start) fun _ _ => .pure (by simp)
    · exact .bind (.skip 1) fun _ _ => .bind (.spanFrom start) fun _ _ => .pure (by simp)
    · exact .bind (.skip 1) fun _ _ => .bind (.spanFrom start) fun _ _ => .pure (by simp)
    · exact .ite escape_carries (.bind (.plainCharacter _) fun _ _ => .pure (by simp))

theorem quantifiedAtom_carries :
    Carries f (List.map (Regex.move f)) r (quantifiedAtom n) (quantifiedAtom n) := by
  refine .bind (atom_carries hn) fun part _ => ?_
  cases part with
  | some part => exact .bind (quantified_carries part) fun _ _ => .pure rfl
  | none => exact .pure rfl

theorem sequenceItems_carries (rounds : Nat) :
    Carries f (List.map (Regex.move f)) r (sequenceItems n rounds) (sequenceItems n rounds) := by
  induction rounds generalizing r with
  | zero => exact .pure rfl
  | succ rounds ih =>
    refine .bind skipExtended_carries fun _ r => .get ?_
    rw [Reader.move_head?, Reader.move_sees, Reader.move_peek?]
    refine .ite (.pure rfl) (.ite ?_ ?_)
    · exact .bind quotedItems_carries fun _ _ => .bind ih fun _ _ => .pure (by simp)
    · exact .bind (quantifiedAtom_carries hn) fun _ _ => .bind ih fun _ _ => .pure (by simp)

theorem sequence_carries : Carries f (Regex.move f) r (sequence n) (sequence n) := by
  refine .get ?_
  rw [Reader.move_rest_length, Reader.move_offset]
  generalize r.offset = start
  refine .bind (sequenceItems_carries hn _) fun items _ => ?_
  match items with
  | [item] => exact .pure rfl
  | [] | _ :: _ :: _ => exact .bind (.spanFrom start) fun _ _ => .pure (by simp)

theorem alternatives_carries (rounds : Nat) :
    Carries f (List.map (Regex.move f)) r (alternatives n rounds) (alternatives n rounds) := by
  induction rounds generalizing r with
  | zero => exact .pure rfl
  | succ rounds ih =>
    refine .bind (.eat _) fun found _ => .ite ?_ (.pure rfl)
    exact .bind (sequence_carries hn) fun _ _ => .bind ih fun _ _ => .pure rfl

theorem disjunctionWith_carries :
    Carries f (Regex.move f) r (disjunctionWith n) (disjunctionWith n) := by
  refine .get ?_
  rw [Reader.move_rest_length, Reader.move_offset]
  generalize r.offset = start
  refine .bind (sequence_carries hn) fun first _ => ?_
  refine .bind (alternatives_carries hn _) fun more _ => ?_
  cases more with
  | nil => exact .pure rfl
  | cons => exact .bind (.spanFrom start) fun _ _ => .pure (by simp)

end Sequence

theorem nestedReaders_carried (f : ℕ →o ℕ) (depth : Nat) : (nestedReaders depth).Carried f := by
  induction depth with
  | zero =>
    refine ⟨fun r => ?_, fun r => .pure rfl, fun r => ?_⟩
    · refine .get (.get (.pure ?_))
      simp [Span.move]
    · refine .get (.get (.get (.pure ?_)))
      simp [moveClass, moveUnion, Span.move]
  | succ depth ih =>
    exact ⟨fun r => disjunctionWith_carries ih, fun r => groupWith_carries ih,
      fun r => bracketsWith_carries ih.brackets⟩

theorem finish_carries : Carries f id r finish finish := by
  refine .get ?_
  rw [Reader.move_head?, Reader.move_currentSpan]
  exact .ite (.report _ _) (.pure rfl)

/-- A pattern is read in the same way wherever its characters were written. -/
theorem pattern_carries (chars : List SourceChar) :
    Carries f (Regex.move f) r (pattern chars) (pattern (chars.map (·.move f))) := by
  unfold pattern
  rw [List.length_map]
  refine .bind ((nestedReaders_carried f _).disjunction r) fun tree _ => ?_
  exact .bind finish_carries fun _ _ => .pure rfl

end PhpSyntax.Pattern
