import PhpSyntax.Grammar.File
import PhpSyntax.Proofs.Grammar.Statements

namespace PhpSyntax.Grammar

open Production

theorem nested_parses (depth : Nat) : (nested depth).Parses := by
  induction depth with
  | zero =>
    exact ⟨fun _ _ _ _ => .unexpected, fun _ _ _ _ _ => .unexpected, fun _ _ _ _ => .unexpected,
      fun _ _ _ _ => .unexpected, fun _ _ _ _ _ => .unexpected, fun _ _ _ _ => .unexpected⟩
  | succ depth ih =>
    exact ⟨statement_parses ih, binary_parses ih, unary_parses ih, access_parses ih,
      fun _ _ _ => dollarVariable_parsed ih, typeAtom_parses ih⟩

/-- A file is read up to its first end, and not beyond. -/
theorem compilationUnit_reads {c : Cursor} (hc : c.Ends) :
    compilationUnit.Ensures c fun tree _ => ∃ before stop after,
      c.stream = before ++ stop :: after ∧ (∀ t ∈ before, t.kind ≠ .eof) ∧ stop.kind = .eof ∧
        tree.tokens = before ++ [stop] ∧ tree.Sound := by
  have hs := (nested_parses c.remaining).statement
  refine .get ?_
  refine (gatherTrees_reads (fun us c' h _ => (hs h).imp fun _ _ ht => ht.toTook)
    (Reads.refl hc)).bind fun slots d hd => Ensures.leaf (.pure ?_)
  obtain ⟨hr, hend⟩ := hd
  have hk : d.current.kind = .eof := Cursor.atEnd_iff.mp (by simpa using hend)
  rw [List.nil_append] at hr
  refine ⟨_, d.current, d.ahead, hr.stream_eq, hr.inside, hk, by simp, ?_⟩
  rw [Tree.sound_node, filled_append, List.forall_mem_append]
  refine ⟨⟨rfl, nofun⟩, hr.sound, ?_⟩
  simp [Tree.sound_leaf, Kind.holds]

theorem parse_eq {t : Token} {ts : List Token} (h : (ts.getLastD t).kind = .eof) :
    parse (t :: ts) = (compilationUnit.run ⟨t, ts⟩).map (·.1) :=
  if_pos h

theorem parse_run {ts : List Token} {tree : Tree} (h : parse ts = .ok tree) :
    ∃ c d : Cursor, c.stream = ts ∧ c.Ends ∧ compilationUnit.run c = .ok (tree, d) := by
  unfold parse at h
  split at h
  · cases h
  · next t ts =>
    dsimp only at h
    split at h
    · next hk =>
      cases hr : compilationUnit.run ⟨t, ts⟩ with
      | error e => simp [hr, Except.map] at h
      | ok result =>
        obtain ⟨_, d⟩ := result
        obtain rfl : _ = tree := by simpa [hr, Except.map] using h
        exact ⟨⟨t, ts⟩, d, rfl, ⟨_, List.getLastD_mem_cons, hk⟩, hr⟩
    · cases h

theorem parse_reads {ts : List Token} {tree : Tree} (h : parse ts = .ok tree) :
    ∃ before stop after, ts = before ++ stop :: after ∧ (∀ t ∈ before, t.kind ≠ .eof) ∧
      stop.kind = .eof ∧ tree.tokens = before ++ [stop] ∧ tree.Sound := by
  obtain ⟨c, d, rfl, hc, hr⟩ := parse_run h
  exact compilationUnit_reads hc tree d hr

/-- No token is lost, read twice or moved: the leaves of a tree are the tokens up to and including
the first end of the file. -/
theorem parse_keeps_tokens {ts : List Token} {tree : Tree} (h : parse ts = .ok tree) :
    ∃ k, ts.findIdx? (·.kind = .eof) = some k ∧ tree.tokens = ts.take (k + 1) := by
  obtain ⟨before, stop, after, rfl, hb, hs, ht, -⟩ := parse_reads h
  refine ⟨before.length, ?_, by simp [ht, List.take_length_add_append]⟩
  have hn : before.findIdx? (·.kind = .eof) = none := by simpa using hb
  simp [List.findIdx?_append, hn, List.findIdx?_cons, hs]

/-- Comments stay with their token, and what follows the first end of the file is not read. -/
theorem parse_keeps_tokens_before_end :
    let ts : List Token := [⟨.openTag, "<?php", ⟨1, 0⟩, []⟩,
      ⟨.variableName, "$a", ⟨1, 10⟩, [⟨"/**/", ⟨1, 6⟩⟩]⟩, ⟨.punctuator, ";", ⟨1, 12⟩, []⟩,
      ⟨.eof, "", ⟨1, 13⟩, []⟩, ⟨.identifier, "b", ⟨1, 13⟩, []⟩, ⟨.eof, "", ⟨1, 14⟩, []⟩]
    ∃ tree, parse ts = .ok tree ∧ ts.findIdx? (·.kind = .eof) = some 3 ∧
      tree.tokens = ts.take 4 := by
  intro ts
  have h : parse ts = .ok _ := rfl
  obtain ⟨k, hk, ht⟩ := parse_keeps_tokens h
  obtain rfl : 3 = k := Option.some.inj hk
  exact ⟨_, h, hk, ht⟩

/-- A source has a tree where the lexer reports nothing and its tokens have one. -/
theorem parseSource_ok {source : String} {tree : Tree} (h : parseSource source = .ok tree) :
    (Lexer.tokenize source).errors = [] ∧ parse (Lexer.tokenize source).tokens = .ok tree := by
  change (Except.mapError _ (Lexer.tokenize source).toExcept >>= _) = _ at h
  unfold Lexer.Lexed.toExcept at h
  cases he : (Lexer.tokenize source).errors with
  | cons e es =>
    rw [he] at h
    cases h
  | nil =>
    rw [he] at h
    refine ⟨rfl, ?_⟩
    change Except.mapError _ (parse (Lexer.tokenize source).tokens) = _ at h
    cases hp : parse (Lexer.tokenize source).tokens with
    | error e =>
      rw [hp] at h
      cases h
    | ok t =>
      rw [hp] at h
      cases h
      rfl

end PhpSyntax.Grammar
