import Mathlib.Data.List.TakeWhile
import PhpSyntax.Proofs.Grammar.File
import PhpSyntax.Proofs.Lexer.Tokens
import PhpSyntax.Proofs.Tree.Walk

namespace PhpSyntax

/-- A gap as it is printed: its line feeds, and a space for each character after the last. -/
def normalise (gap : List Char) : List Char :=
  List.replicate (gap.count '\n') '\n' ++
    List.replicate (gap.reverse.takeWhile (· ≠ '\n')).length ' '

def weave : List (List Char) → List String → List Char
  | gap :: gaps, text :: texts => gap ++ text.toList ++ weave gaps texts
  | _, _ => []

/-- The pieces stand where the gaps and the pieces before them lead to. -/
def Placed (pos : Position) : List (List Char) → List (String × Position) → Prop
  | [], [] => True
  | gap :: gaps, (text, start) :: pieces =>
    start = pos.advance gap ∧ Placed (start.advance text.toList) gaps pieces
  | _, _ => False

theorem Position.advance_column_of_mem (p : Position) {cs : List Char} (h : '\n' ∈ cs) :
    (p.advance cs).column = (cs.reverse.takeWhile (· ≠ '\n')).length := by
  induction cs using List.reverseRecOn with
  | nil => cases h
  | append_singleton cs c ih =>
    rw [advance_append]
    by_cases hc : c = '\n'
    · simp [next, hc]
    · have hmem : '\n' ∈ cs := by simpa [Ne.symm hc] using h
      simp [next, hc, ih hmem]

theorem normalise_of_not_mem {gap : List Char} (h : '\n' ∉ gap) :
    normalise gap = List.replicate gap.length ' ' := by
  have hall : gap.reverse.takeWhile (· ≠ '\n') = gap.reverse := by
    rw [List.takeWhile_eq_self_iff]
    intro c hc
    simp only [ne_eq, decide_eq_true_eq]
    rintro rfl
    exact h (List.mem_reverse.mp hc)
  rw [normalise, List.count_eq_zero.mpr h, hall, List.length_reverse]
  rfl

/-- What leads over a gap is the gap as it is printed. -/
theorem gap_advance (p : Position) (gap : List Char) :
    Tree.gap p (p.advance gap) = normalise gap := by
  rw [Tree.gap, Position.advance_line]
  by_cases h : '\n' ∈ gap
  · have hpos : 0 < gap.count '\n' := List.count_pos_iff.mpr h
    rw [if_pos (by omega), Position.advance_column_of_mem p h, Nat.add_sub_cancel_left, normalise]
  · have hcount : gap.count '\n' = 0 := List.count_eq_zero.mpr h
    rw [if_neg (by omega), Position.advance_column p gap h, Nat.add_sub_cancel_left,
      normalise_of_not_mem h]

theorem layOut_eq {pos : Position} {gaps : List (List Char)} {pieces : List (String × Position)}
    (h : Placed pos gaps pieces) :
    Tree.layOut pos pieces = weave (gaps.map normalise) (pieces.map Prod.fst) := by
  induction gaps generalizing pos pieces with
  | nil =>
    cases pieces with
    | nil => rfl
    | cons piece pieces => cases h
  | cons gap gaps ih =>
    cases pieces with
    | nil => cases h
    | cons piece pieces =>
      obtain ⟨hstart, hrest⟩ := h
      simp [Tree.layOut, weave, hstart ▸ gap_advance pos gap, ih hrest]

theorem normalise_printed (m n : Nat) :
    normalise (List.replicate m '\n' ++ List.replicate n ' ') =
      List.replicate m '\n' ++ List.replicate n ' ' := by
  simp [normalise, List.count_replicate]

namespace Lexer

/-- The gaps before the comments and tokens of segments, the first of which starts with
`pending`. -/
def gapsFrom (pending : List Char) : List Segment → List (List Char)
  | [] => [pending]
  | g :: gs =>
    if g.reading.piece.isKept then pending :: gapsFrom g.skipped gs
    else gapsFrom (pending ++ g.whole) gs

theorem gapsFrom_placed (pos : Position) (pending : List Char) (gs : List Segment) :
    Placed pos (gapsFrom pending gs) (piecesFrom (pos.advance pending) gs) := by
  induction gs generalizing pos pending with
  | nil => exact ⟨rfl, trivial⟩
  | cons g gs ih =>
    rw [gapsFrom, piecesFrom]
    split
    · refine ⟨rfl, ?_⟩
      have := ih ((pos.advance pending).advance g.chars) g.skipped
      simpa [Segment.whole, Position.advance_append] using this
    · have := ih pos (pending ++ g.whole)
      simpa [Position.advance_append] using this

theorem weave_gapsFrom (pos : Position) (pending : List Char) (gs : List Segment) :
    weave (gapsFrom pending gs) ((piecesFrom pos gs).map Prod.fst) =
      pending ++ gs.flatMap Segment.whole := by
  induction gs generalizing pos pending with
  | nil => simp [gapsFrom, piecesFrom, weave]
  | cons g gs ih =>
    rw [gapsFrom, piecesFrom]
    split
    · simp [weave, ih, Segment.whole]
    · simp [ih]

theorem gapsFrom_whiteSpace {pending : List Char} {gs : List Segment}
    (hp : ∀ c ∈ pending, Text.isWhiteSpace c) (hfits : ∀ g ∈ gs, g.Fits)
    (hsound : ∀ g ∈ gs, g.reading.fault = none) :
    ∀ gap ∈ gapsFrom pending gs, ∀ c ∈ gap, Text.isWhiteSpace c := by
  induction gs generalizing pending with
  | nil => simpa [gapsFrom] using hp
  | cons g gs ih =>
    rw [List.forall_mem_cons] at hfits hsound
    cases hk : g.reading.piece.isKept with
    | true =>
      rw [gapsFrom, if_pos hk]
      exact List.forall_mem_cons.mpr ⟨hp, ih hfits.1.skips hfits.2 hsound.2⟩
    | false =>
      rw [gapsFrom, if_neg (by simp [hk])]
      obtain ⟨c, hc, hwhite | hfault⟩ := hfits.1.dropped hk
      · refine ih ?_ hfits.2 hsound.2
        rw [hc]
        exact List.forall_mem_append.mpr ⟨hp, by simpa using hwhite⟩
      · rw [hsound.1] at hfault
        cases hfault

theorem piecesFrom_last (pos : Position) (gs : List Segment) :
    ((piecesFrom pos gs).map Prod.fst).getLast? = some "" := by
  induction gs generalizing pos with
  | nil => rfl
  | cons g gs ih =>
    rw [piecesFrom]
    split
    · simp only [List.map_cons, List.getLast?_cons, ih, Option.getD_some]
    · exact ih _

section Source

variable {options : LexerOptions} {source : String}

theorem sourceSegments_fits (options : LexerOptions) (source : String) :
    ∀ g ∈ sourceSegments options source, g.Fits :=
  segments_fits options false _

theorem sourceSegments_whole :
    (sourceSegments options source).flatMap Segment.whole =
      withoutByteOrderMark source.toList := by
  rw [withoutByteOrderMark_eq]
  exact segments_whole ..

theorem sourceSegments_sound (h : (tokenizeWith options source).errors = []) :
    ∀ g ∈ sourceSegments options source, g.reading.fault = none := by
  rw [tokenizeWith_eq, assemble_errors] at h
  exact errorsFrom_eq_nil h

theorem tokenizeWith_pieces :
    (tokenizeWith options source).pieces = piecesFrom .start (sourceSegments options source) := by
  rw [tokenizeWith_eq, assemble_pieces]
  rfl

end Source

end Lexer

namespace Grammar

variable {source : String} {tree : Tree}

/-- The leaves of the tree of a source are its tokens, all of them. -/
theorem parseSource_tokens (h : parseSource source = .ok tree) :
    tree.tokens = (Lexer.tokenize source).tokens := by
  obtain ⟨-, hparse⟩ := parseSource_ok h
  obtain ⟨before, stop, after, htokens, hbefore, hstop, htree, -⟩ := parse_reads hparse
  obtain ⟨init, last, hlexed, -, -, hinit⟩ :=
    Lexer.assemble_ends .start [] (Lexer.sourceSegments_fits ⟨false⟩ source)
  have hsame : before ++ stop :: after = init ++ [last] := by
    rw [← htokens, ← hlexed]
    exact congrArg Lexer.Lexed.tokens (Lexer.tokenizeWith_eq ⟨false⟩ source)
  rw [htree, htokens]
  obtain rfl | ⟨rest, last', rfl⟩ := List.eq_nil_or_concat after
  · rfl
  · -- only the last token of a source is the end of the file
    have hmem : stop ∈ init := by
      rw [List.concat_eq_append, ← List.cons_append, ← List.append_assoc] at hsame
      rw [← (List.append_inj' hsame rfl).1]
      simp
    exact absurd hstop (hinit stop hmem).1

def gapsOf (source : String) : List (List Char) :=
  Lexer.gapsFrom [] (Lexer.sourceSegments ⟨false⟩ source)

theorem gapsOf_placed : Placed .start (gapsOf source) (Lexer.tokenize source).pieces := by
  rw [Lexer.tokenize, Lexer.tokenizeWith_pieces]
  exact Lexer.gapsFrom_placed .start [] _

theorem toSource_eq (h : parseSource source = .ok tree) :
    tree.toSource = String.ofList
      (weave ((gapsOf source).map normalise) ((Lexer.tokenize source).pieces.map Prod.fst)) := by
  rw [Tree.toSource, Tree.leafTokens_eq, parseSource_tokens h, ← layOut_eq gapsOf_placed]
  rfl

/-- Printing keeps the comments and tokens of a source and normalises what stands between them.
A source without its byte order mark consists of gaps of white space, each before a comment or
token at its position. -/
theorem toSource_normalises (h : parseSource source = .ok tree) :
    ∃ gaps, Lexer.withoutByteOrderMark source.toList =
        weave gaps ((Lexer.tokenize source).pieces.map Prod.fst) ∧
      Placed .start gaps (Lexer.tokenize source).pieces ∧
      (∀ gap ∈ gaps, ∀ c ∈ gap, Text.isWhiteSpace c) ∧
      ((Lexer.tokenize source).pieces.map Prod.fst).getLast? = some "" ∧
      tree.toSource = String.ofList
        (weave (gaps.map normalise) ((Lexer.tokenize source).pieces.map Prod.fst)) ∧
      (source.toList.head? ≠ some '\ufeff' →
        (∀ gap ∈ gaps, ∃ m n, gap = List.replicate m '\n' ++ List.replicate n ' ') →
        tree.toSource = source) := by
  have hpieces : (Lexer.tokenize source).pieces =
      Lexer.piecesFrom .start (Lexer.sourceSegments ⟨false⟩ source) := Lexer.tokenizeWith_pieces
  have hweave : Lexer.withoutByteOrderMark source.toList =
      weave (gapsOf source) ((Lexer.tokenize source).pieces.map Prod.fst) := by
    rw [hpieces, gapsOf, Lexer.weave_gapsFrom, List.nil_append, Lexer.sourceSegments_whole]
  refine ⟨gapsOf source, hweave, gapsOf_placed, ?_, ?_, toSource_eq h, fun hmark hgaps => ?_⟩
  · exact Lexer.gapsFrom_whiteSpace (by simp) (Lexer.sourceSegments_fits _ _)
      (Lexer.sourceSegments_sound (parseSource_ok h).1)
  · rw [hpieces, Lexer.piecesFrom_last]
  · have hsame : (gapsOf source).map normalise = gapsOf source := by
      refine (List.map_congr_left fun gap hgap => ?_).trans (List.map_id _)
      obtain ⟨m, n, rfl⟩ := hgaps gap hgap
      exact normalise_printed m n
    have hmark : Lexer.withoutByteOrderMark source.toList = source.toList := by
      rw [Lexer.withoutByteOrderMark_eq, Lexer.markLength, if_neg hmark, List.drop_zero]
    rw [toSource_eq h, hsame, ← hweave, hmark, String.ofList_toList]

theorem exists_printed {printed : String}
    (h : (parseSource source).toOption.map Tree.toSource = some printed) :
    ∃ tree, parseSource source = .ok tree ∧ tree.toSource = printed := by
  cases hp : parseSource source with
  | error e => simp [hp, Except.toOption] at h
  | ok tree => exact ⟨tree, rfl, by simpa [hp, Except.toOption] using h⟩

/-- A byte order mark, a tab, a carriage return and the line feed after a closing tag. -/
theorem toSource_normalises_tab :
    let source := "\ufeff<?php\t/* a */\r\n\tf() ?>\n<b>"
    let texts := ["<?php", "/* a */", "f", "(", ")", "?>", "<b>", ""]
    ∃ tree, parseSource source = .ok tree ∧ tree.toSource = "<?php /* a */\n f() ?>\n<b>" ∧
      ∃ gaps, Lexer.withoutByteOrderMark source.toList = weave gaps texts ∧
        tree.toSource = String.ofList (weave (gaps.map normalise) texts) := by
  intro source texts
  obtain ⟨tree, htree, hprinted⟩ : ∃ tree, parseSource source = .ok tree ∧
      tree.toSource = "<?php /* a */\n f() ?>\n<b>" := exists_printed (by decide +kernel)
  have htexts : (Lexer.tokenize source).pieces.map Prod.fst = texts := by decide +kernel
  obtain ⟨gaps, hweave, -, -, -, hnormal, -⟩ := toSource_normalises htree
  rw [htexts] at hweave hnormal
  exact ⟨tree, htree, hprinted, gaps, hweave, hnormal⟩

end Grammar

end PhpSyntax
