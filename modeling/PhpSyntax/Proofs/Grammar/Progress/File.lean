import PhpSyntax.Proofs.Grammar.Progress.Rules

/-!
Reading ends. No production goes back or passes the first end of the file, each round of a loop
reads a token, and so does each level of nesting.
-/

namespace PhpSyntax.Grammar

open Production

structure Cursor.Terminates (c : Cursor) : Prop where
  /-- The cursor is not moved back, nor past the first end of the file. -/
  forward : ∀ {α : Type} {P : Nested → Production α}, Rule P → ∀ depth,
    (P (nested depth)).Ensures c fun _ => c.Leads
  consuming : ∀ minLevel, ∀ P ∈ consumingRules minLevel, ∀ depth,
    (P (nested depth)).Ensures c fun _ d => d.remaining < c.remaining
  /-- A loop ends by itself after at most as many rounds as there are tokens. -/
  loops : ∀ {α : Type} {body : Nat → Production α} depth, Loop (nested depth) body →
    ∀ rounds, c.remaining ≤ rounds → (body rounds).run c = (body c.remaining).run c
  lookahead : c.classModifierCount < c.remaining ∧
    (c.peek c.classModifierCount).isKeywordIn classModifiers = false ∧
    ∀ i < c.classModifierCount, (c.peek i).isKeywordIn classModifiers = true
  /-- Productions are nested at most as deeply as there are tokens: it makes no difference what
  stands below. -/
  nesting : ∀ {α : Type} {P : Nested → Production α}, Rule P → ∀ bottom depth,
    c.remaining ≤ depth → (P (Nested.deepen^[depth] bottom)).run c =
      (P (nested c.remaining)).run c

theorem Cursor.terminates {c : Cursor} (hc : c.Ends) : c.Terminates where
  forward hP depth := ((hP.keeps (nested_agrees depth)) ⟨hc, Nat.le_refl _⟩).ensures
  consuming minLevel P hP depth :=
    ((consumingRules_take hP (nested_agrees depth)) ⟨hc, Nat.le_refl _⟩).ensures.imp
      fun _ _ hd => hd.fewer
  loops depth hbody rounds hle :=
    (hbody.settles (nested_agrees depth) hle (Nat.le_refl _) ⟨hc, Nat.le_refl _⟩).same
  lookahead := classModifierCount_spec hc
  nesting hP bottom depth hle := by
    rw [nested_eq_iterate c.remaining]
    exact (hP.keeps (iterate_agrees bottom (nested 0) hle (Nat.le_refl _)) ⟨hc, Nat.le_refl _⟩).same

/-- Tokens up to the end of the file are read to an end from every place. The whole file takes at
most as many rounds of its loop and as many levels of nesting as there are tokens; within a level
productions only use ones that are defined before them. -/
theorem parse_terminates {ts : List Token} {last : Token} (hlast : ts.getLast? = some last)
    (heof : last.kind = .eof) :
    (∀ c : Cursor, c.stream <:+ ts → c.Terminates) ∧
      ∃ c : Cursor, c.stream = ts ∧ ∀ bottom depth rounds, ts.length ≤ depth →
        ts.length ≤ rounds →
          parse ts = ((unitWithin (Nested.deepen^[depth] bottom) rounds).run c).map (·.1) := by
  have hends : ∀ c : Cursor, c.stream <:+ ts → c.Ends := by
    rintro c ⟨before, rfl⟩
    have hne : c.stream ≠ [] := List.cons_ne_nil _ _
    rw [List.getLast?_append_of_ne_nil _ hne] at hlast
    exact ⟨last, List.mem_of_getLast? hlast, heof⟩
  refine ⟨fun c hc => c.terminates (hends c hc), ?_⟩
  cases ts with
  | nil => cases hlast
  | cons t ts =>
    refine ⟨⟨t, ts⟩, rfl, fun bottom depth rounds hdepth hrounds => ?_⟩
    have hkind : (ts.getLastD t).kind = .eof := by
      rw [List.getLast?_cons, Option.some.injEq] at hlast
      rw [List.getLastD_eq_getLast?, hlast, heof]
    have hc : Cursor.Ends ⟨t, ts⟩ := hends _ (List.suffix_refl _)
    have hsame : Keeps (ts.length + 1) (unitWithin (nested (ts.length + 1)) (ts.length + 1))
        (unitWithin (Nested.deepen^[depth] bottom) rounds) := by
      rw [nested_eq_iterate]
      exact unitWithin_keeps (iterate_agrees _ _ (Nat.le_refl _) hdepth) (Nat.le_refl _) hrounds
    rw [parse_eq hkind, compilationUnit_run]
    exact congrArg (Except.map (·.1)) (hsame ⟨hc, Nat.le_refl _⟩).same

/-- Seven rounds and seven levels are enough for a call with its tags. -/
theorem parse_terminates_call :
    let ts : List Token := [⟨.openTag, "<?php", ⟨1, 0⟩, []⟩, ⟨.identifier, "f", ⟨1, 6⟩, []⟩,
      ⟨.punctuator, "(", ⟨1, 7⟩, []⟩, ⟨.integer, "1", ⟨1, 8⟩, []⟩, ⟨.punctuator, ")", ⟨1, 9⟩, []⟩,
      ⟨.punctuator, ";", ⟨1, 10⟩, []⟩, ⟨.eof, "", ⟨1, 11⟩, []⟩]
    ts.getLast? = some ⟨.eof, "", ⟨1, 11⟩, []⟩ ∧
      (∀ c : Cursor, c.stream <:+ ts → c.Terminates) ∧
      ∃ (c : Cursor) (tree : Tree), c.stream = ts ∧ ∀ bottom,
        ((unitWithin (Nested.deepen^[7] bottom) 7).run c).map (·.1) = .ok tree := by
  intro ts
  have hlast : ts.getLast? = some ⟨.eof, "", ⟨1, 11⟩, []⟩ := rfl
  obtain ⟨tree, htree⟩ : ∃ tree, parse ts = .ok tree := ⟨_, rfl⟩
  obtain ⟨hall, c, hc, hparse⟩ := parse_terminates hlast rfl
  refine ⟨hlast, hall, c, tree, hc, fun bottom => ?_⟩
  exact (hparse bottom 7 7 (Nat.le_refl _) (Nat.le_refl _)).symm.trans htree

end PhpSyntax.Grammar
