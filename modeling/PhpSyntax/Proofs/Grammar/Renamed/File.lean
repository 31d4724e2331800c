import PhpSyntax.Proofs.Grammar.File
import PhpSyntax.Proofs.Grammar.Renamed.Statements

namespace PhpSyntax

def SyntaxFault.found? : SyntaxFault → Option String
  | expected _ found => some found
  | unexpectedEnd _ => none
  | unexpectedToken found => some found

def SyntaxFault.quoting (text : String) : SyntaxFault → SyntaxFault
  | expected what _ => expected what text
  | unexpectedEnd what => unexpectedEnd what
  | unexpectedToken _ => unexpectedToken text

namespace Grammar

open Production

theorem nested_mirrored (f : Renaming) (depth : Nat) : (nested depth).Mirrored f := by
  induction depth with
  | zero =>
    exact ⟨fun _ => .unexpected, fun _ _ => .unexpected, fun _ _ => .unexpected,
      fun _ => .unexpected, fun _ => .unexpected, fun _ _ => .unexpected, fun _ => .unexpected⟩
  | succ depth ih =>
    exact ⟨statement_mirrored ih, binary_mirrored ih, fun _ _ => binary_operand, unary_mirrored ih,
      access_mirrored ih, fun _ => dollarVariable_mirrors ih, typeAtom_mirrored ih⟩

namespace Complaint

variable (k : Complaint) (c : Cursor)

theorem position_at : (k.at c).position = c.current.start := by
  cases k <;> rfl

theorem found_at :
    (k.at c).fault.found? = if c.current.kind = .eof then none else some c.current.text := by
  cases k <;> by_cases h : c.current.kind = .eof <;>
    simp [Complaint.at, Cursor.expectedError, Cursor.unexpectedError, Cursor.atEnd, h,
      SyntaxFault.found?]

theorem at_rename (f : Renaming) : k.at (c.rename f) =
    ⟨(k.at c).fault.quoting (f.apply c.current).text, (f.apply c.current).start⟩ := by
  cases k <;> by_cases h : c.current.kind = .eof <;>
    simp [Complaint.at, Cursor.expectedError, Cursor.unexpectedError, Cursor.atEnd, h,
      SyntaxFault.quoting]

end Complaint

section Unit

variable {f : Renaming} {c : Cursor}

/-- The statements of a file end where the file does. -/
theorem statements_end (hc : c.Ends) :
    (gatherTrees (!·.atEnd) (nested c.remaining).statement).Ensures c
      fun _ d => d.atEnd = true := by
  have hs := (nested_parses c.remaining).statement
  refine (gatherTrees_reads (fun us c' h _ => (hs h).imp fun _ _ ht => ht.toTook)
    (Reads.refl hc)).imp fun slots d hd => ?_
  simpa using hd.2

theorem compilationUnit_mirrors (hc : c.Ends) :
    Mirrors f (Tree.rename f) c compilationUnit compilationUnit := by
  refine .get ?_
  rw [Cursor.remaining_rename]
  refine (gatherTrees_mirrors (by simp) fun d _ => (nested_mirrored f _).statement d).bindOf
    fun statements d hrun => ?_
  have hd : d.current.kind = .eof := Cursor.atEnd_iff.mp (statements_end hc _ _ hrun)
  exact (token_mirrors (Cursor.not_infix_of_kind (by simp [hd]))).bind
    fun stop c₁ => .pure (by simp)

theorem compilationUnit_ends (hc : c.Ends) :
    compilationUnit.Ensures c fun _ d => d.atEnd = true := by
  refine .get ((statements_end hc).bind fun statements d hd => Ensures.leaf (.pure ?_))
  simp [Cursor.next, hd]

end Unit

/-- A file depends on the kinds of its tokens, on its punctuators, and on its identifiers up to
their case. Under any change that keeps these the same tree comes out over the changed tokens, or
the same complaint about the same token, which is none after the first end of the file. -/
theorem parse_rename (f : Renaming) {ts : List Token} {last : Token}
    (hlast : ts.getLast? = some last) (heof : last.kind = .eof) :
    (∀ tree, parse ts = .ok tree → parse (ts.map f.apply) = .ok (tree.rename f)) ∧
      ∀ e, parse ts = .error e → ∃ i t, ts[i]? = some t ∧ (∀ u ∈ ts.take i, u.kind ≠ .eof) ∧
        e.position = t.start ∧
        e.fault.found? = (if t.kind = .eof then none else some t.text) ∧
        parse (ts.map f.apply) =
          .error ⟨e.fault.quoting (f.apply t).text, (f.apply t).start⟩ := by
  cases ts with
  | nil => cases hlast
  | cons t ts =>
    obtain rfl : ts.getLastD t = last := by simpa [List.getLast?_cons] using hlast
    have hc : Cursor.Ends ⟨t, ts⟩ := ⟨_, List.getLastD_mem_cons, heof⟩
    have heof' : ((ts.map f.apply).getLastD (f.apply t)).kind = .eof := by
      rw [List.getLastD_map, f.kind_apply, heof]
    have hcursor : (⟨f.apply t, ts.map f.apply⟩ : Cursor) = Cursor.rename f ⟨t, ts⟩ := rfl
    rw [List.map_cons, parse_eq heof, parse_eq heof']
    obtain ⟨tree, d, hp, hq, -⟩ | ⟨k, d, hp, hq, between, hs, hb⟩ :=
      compilationUnit_mirrors (f := f) hc
    all_goals rw [hcursor, hp, hq]
    · refine ⟨?_, nofun⟩
      rintro _ ⟨⟩
      rfl
    · refine ⟨nofun, ?_⟩
      rintro _ ⟨⟩
      have hs : t :: ts = between ++ d.current :: d.ahead := hs
      refine ⟨between.length, d.current, by simp [hs], by simpa [hs] using hb, k.position_at d,
        k.found_at d, ?_⟩
      rw [k.at_rename]
      rfl

/-- Other capitals, another number, other places and no comments. -/
def capitals : Renaming where
  apply t :=
    { kind := t.kind
      text :=
        match t.kind with
        | .identifier => if t.text = "echo" then "ECHO" else t.text
        | .integer => "2"
        | _ => t.text
      start := ⟨t.start.line + 1, 0⟩
      trivia := [] }
  kind_apply _ := rfl
  punctuator_apply t h := by simp [h]
  identifier_apply t h := by
    by_cases ht : t.text = "echo" <;> simp [h, ht, Text.sameIgnoringCase]

/-- A file that has a tree, and one that lacks an operand after a number. -/
theorem parse_rename_capitals :
    let opening : List Token := [⟨.openTag, "<?php", ⟨1, 0⟩, []⟩,
      ⟨.identifier, "echo", ⟨1, 10⟩, [⟨"/**/", ⟨1, 6⟩⟩]⟩, ⟨.integer, "1", ⟨1, 15⟩, []⟩]
    let whole := opening ++ [⟨.punctuator, ";", ⟨1, 16⟩, []⟩, ⟨.eof, "", ⟨1, 17⟩, []⟩]
    let broken := opening ++ [⟨.integer, "3", ⟨1, 17⟩, []⟩, ⟨.eof, "", ⟨1, 18⟩, []⟩]
    (∃ tree, parse whole = .ok tree ∧
        parse (whole.map capitals.apply) = .ok (tree.rename capitals)) ∧
      parse broken = .error ⟨.expected (.punctuator .semicolon) "3", ⟨1, 17⟩⟩ ∧
      ∃ t ∈ broken, t.start = ⟨1, 17⟩ ∧ parse (broken.map capitals.apply) =
        .error ⟨.expected (.punctuator .semicolon) (capitals.apply t).text,
          (capitals.apply t).start⟩ := by
  intro opening whole broken
  have hw : parse whole = .ok _ := rfl
  have hb : parse broken = .error _ := rfl
  have hlast : whole.getLast? = some ⟨.eof, "", ⟨1, 17⟩, []⟩ := rfl
  have hlast' : broken.getLast? = some ⟨.eof, "", ⟨1, 18⟩, []⟩ := rfl
  refine ⟨⟨_, hw, (parse_rename capitals hlast rfl).1 _ hw⟩, hb, ?_⟩
  obtain ⟨i, t, ht, -, hstart, -, herror⟩ := (parse_rename capitals hlast' rfl).2 _ hb
  exact ⟨t, List.mem_of_getElem? ht, hstart.symm, herror⟩

theorem takeWhile_not_eof {before after : List Token} {stop : Token}
    (hb : ∀ t ∈ before, t.kind ≠ .eof) (hs : stop.kind = .eof) :
    (before ++ stop :: after).takeWhile (·.kind ≠ .eof) = before := by
  rw [List.takeWhile_append_of_pos (by simpa using hb)]
  simp [hs]

/-- No two tokens of a tree that follow each other are infix operators. -/
theorem tokens_isChain {ts : List Token} {tree : Tree} (h : parse ts = .ok tree) :
    tree.tokens.IsChain fun t u => ¬ (isInfix t = true ∧ isInfix u = true) := by
  obtain ⟨c, d, rfl, hc, hrun⟩ := parse_run h
  obtain ⟨before, stop, after, hs, hb, hstop, ht, -⟩ := compilationUnit_reads hc tree d hrun
  obtain ⟨_, _, hrun', -, hmoves⟩ | ⟨k, _, hrun', -⟩ := compilationUnit_mirrors (f := .refl) hc
  · rw [hrun] at hrun'
    cases hrun'
    obtain ⟨between, hs', hb', hchain⟩ := hmoves.isChain
    have hd : d.current.kind = .eof := Cursor.atEnd_iff.mp (compilationUnit_ends hc _ _ hrun)
    have hsame : before ++ stop :: after = between ++ d.current :: d.ahead := hs.symm.trans hs'
    obtain rfl : before = between := by
      rw [← takeWhile_not_eof hb hstop, hsame, takeWhile_not_eof hb' hd]
    obtain rfl : stop = d.current := (List.cons.inj (List.append_cancel_left hsame)).1
    exact ht ▸ hchain
  · rw [hrun] at hrun'
    cases hrun'

end Grammar

end PhpSyntax
