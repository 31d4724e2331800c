import PhpSyntax.Proofs.Grammar.File
import PhpSyntax.Proofs.Lexer.Tokens
import PhpSyntax.Proofs.Pattern.Analysed
import PhpSyntax.Proofs.Pattern.Duplicates
import PhpSyntax.Proofs.Pattern.Groups

namespace PhpSyntax

def Finding.locations (f : Finding) : List Location :=
  f.primary :: f.secondaries.map (·.location)

namespace Pattern

open Grammar (parseSource_ok)

theorem finding_locations {p : DelimitedPattern} {members : List ClassElement} {finding : Finding}
    (h : finding? p members = some finding) :
    finding.locations = members.map fun e => p.locationOf e.span := by
  unfold finding? at h
  split at h
  · simp at h
  · rename_i first rest
    cases h
    rw [foldl_addSecondary]
    simp [Finding.locations, Finding.ofPrimary]

theorem mem_checkedUnions {tree : Regex} {u : ClassUnion} (h : u ∈ checkedUnions tree) :
    u ∈ tree.unions := by
  obtain ⟨part, hp, h⟩ := List.mem_filterMap.mp h
  split at h
  · cases h
    exact Regex.mem_unions.mpr (Part.visit_subset _ _ hp)
  · simp at h

/-- A finding is about the reported members of one union. -/
theorem finding_of_union {p : DelimitedPattern} {u : ClassUnion} {finding : Finding}
    (h : unionFinding p u = .ok (some finding)) :
    ∃ members, duplicates u = .ok members ∧ finding? p members = some finding := by
  unfold unionFinding at h
  split at h
  · rename_i members hmembers
    exact ⟨members, hmembers, by simpa using h⟩
  · simp at h
  · simp at h

theorem mem_patternFindings {p : AnalysedPattern} {findings : List Finding} {finding : Finding}
    (h : patternFindings p = .ok findings) (hf : finding ∈ findings) :
    ∃ u ∈ p.parsed.tree.unions, ∃ members, duplicates u = .ok members ∧
      finding? p.source members = some finding := by
  simp only [patternFindings, bind, Except.bind] at h
  split at h
  · simp at h
  · rename_i found hfound
    cases h
    obtain ⟨_, hmem, rfl⟩ := List.mem_filterMap.mp hf
    obtain ⟨u, hu, hunion⟩ := mem_of_mapM hfound _ hmem
    exact ⟨u, mem_checkedUnions hu, finding_of_union hunion⟩

theorem mem_findings {tree : Tree} {findings : List Finding} {finding : Finding}
    (h : duplicatesInCharacterClass tree = .ok findings) (hf : finding ∈ findings) :
    ∃ p ∈ analysedPatterns tree, ∃ u ∈ p.parsed.tree.unions, ∃ members,
      duplicates u = .ok members ∧ finding? p.source members = some finding := by
  simp only [duplicatesInCharacterClass, bind, Except.bind] at h
  split at h
  · simp at h
  · rename_i found hfound
    cases h
    obtain ⟨list, hlist, hf⟩ := List.mem_flatten.mp hf
    obtain ⟨p, hp, hpattern⟩ := mem_of_mapM hfound _ hlist
    exact ⟨p, hp, mem_patternFindings hpattern hf⟩

/-- The reported members come from different places, of which there are none or several. -/
theorem duplicates_of_places {u : ClassUnion} {members : List ClassElement}
    (h : duplicates u = .ok members) :
    ∃ places : List Nat, members = places.filterMap (u.elements[·]?) ∧
      members.length = places.length ∧ places.Nodup ∧ (∀ i ∈ places, i < u.elements.length) ∧
        ∀ i ∈ places, ∃ j ∈ places, j ≠ i := by
  simp only [duplicates, bind, Except.bind] at h
  split at h
  · simp at h
  · rename_i places hplaces
    cases h
    obtain ⟨hnodup, hlt, hseveral⟩ := duplicatePlaces_sound hplaces
    refine ⟨places, rfl, ?_, hnodup, hlt, hseveral⟩
    rw [List.filterMap_length_eq_length]
    intro i hi
    simpa using hlt i hi

theorem duplicates_several {u : ClassUnion} {members : List ClassElement}
    (h : duplicates u = .ok members) (hne : members ≠ []) :
    2 ≤ members.length ∧ 2 ≤ u.elements.length := by
  obtain ⟨places, -, hlen, -, hlt, hseveral⟩ := duplicates_of_places h
  have hplaces : places ≠ [] := by
    rintro rfl
    exact hne (List.eq_nil_of_length_eq_zero hlen)
  obtain ⟨i, hi⟩ := List.exists_mem_of_ne_nil _ hplaces
  obtain ⟨j, hj, hji⟩ := hseveral i hi
  have hi' := hlt i hi
  have hj' := hlt j hj
  refine ⟨?_, by omega⟩
  rw [hlen]
  by_contra hshort
  obtain ⟨k, rfl⟩ := List.length_eq_one_iff.mp
    (show places.length = 1 by have := List.length_pos_iff.mpr hplaces; omega)
  simp only [List.mem_singleton] at hi hj
  omega

/-- Reported members were read from different characters. -/
theorem duplicates_located {chars : List SourceChar} {u : ClassUnion}
    {members : List ClassElement} (hu : u.Located chars) (h : duplicates u = .ok members)
    (hne : members ≠ []) :
    (∀ e ∈ members, e ∈ u.elements ∧ e.Located chars) ∧
      members.Pairwise fun a b => a.span.stop ≤ b.span.start ∨ b.span.stop ≤ a.span.start := by
  obtain ⟨-, hlen⟩ := duplicates_several h hne
  obtain ⟨places, rfl, -, hnodup, hlt, -⟩ := duplicates_of_places h
  obtain ⟨operands, s, hsingle⟩ | ⟨hordered, hlocated⟩ := hu
  · simp [hsingle] at hlen
  · constructor
    · intro e he
      obtain ⟨i, -, hi⟩ := List.mem_filterMap.mp he
      have he := List.mem_of_getElem? hi
      exact ⟨he, hlocated e he⟩
    · rw [List.pairwise_filterMap]
      refine hnodup.imp fun {i j} hij a ha b hb => ?_
      obtain ⟨hi, rfl⟩ := List.getElem?_eq_some_iff.mp ha
      obtain ⟨hj, rfl⟩ := List.getElem?_eq_some_iff.mp hb
      rw [List.pairwise_iff_getElem] at hordered
      obtain hlt | hlt := Nat.lt_or_gt_of_ne hij
      · exact .inl (hordered i j hi hj hlt)
      · exact .inr (hordered j i hj hi hlt)

/-- A string token that stands at `offset` in a text, and the pattern in it. After the quote, white
space and the delimiter, the text of the pattern starts at `base`. -/
structure LiteralAt (cs : List Char) (token : Token) (offset base : Nat) (p : DelimitedPattern) :
    Prop where
  kind : token.kind = .singleQuotedString ∨ token.kind = .doubleQuotedString
  text : cs.extract offset (offset + token.length) = token.text.toList
  start : token.start = .after (cs.take offset)
  quotes : ∃ body, token.text.toList = p.quote.mark :: body ++ [p.quote.mark]
  pattern : DelimitedPattern.ofLiteral (.leaf .regularStringLiteral token) = .ok p
  base_eq : ∃ blanks last, p.WrittenIn token blanks last ∧ base = offset + (blanks.length + 2)

def ClassElement.locationFrom (cs : List Char) (base : Nat) (e : ClassElement) : Location :=
  ⟨.after (cs.take (base + e.span.start)), .after (cs.take (base + e.span.stop))⟩

/-- The stretch of a member lies between the quotes of the token, and consists of the very
characters that the member was read from. -/
structure MemberAt (cs : List Char) (token : Token) (offset base : Nat) (p : DelimitedPattern)
    (u : ClassUnion) (e : ClassElement) : Prop where
  mem : e ∈ u.elements
  after_quote : offset < base + e.span.start
  nonempty : e.span.start < e.span.stop
  before_quote : base + e.span.stop < offset + token.length
  read : ∃ pre taken post, p.characters = pre ++ taken ++ post ∧
    Tiled e.span.start taken e.span.stop ∧ e.ReadFrom taken post ∧
      cs.extract (base + e.span.start) (base + e.span.stop) = rawText p.text.toList taken

/-- The places of a finding are those where members of one class stand in one literal, and they do
not overlap. -/
def PointsAtMembers (source : String) (finding : Finding) : Prop :=
  let cs := Lexer.withoutByteOrderMark source.toList
  ∃ token ∈ (Lexer.tokenize source).tokens, ∃ offset base p, LiteralAt cs token offset base p ∧
    ∃ u ∈ p.parse.tree.unions, ∃ members : List ClassElement,
      finding.locations = members.map (·.locationFrom cs base) ∧
      (∀ e ∈ members, MemberAt cs token offset base p u e) ∧
      members.Pairwise fun a b => a.span.stop ≤ b.span.start ∨ b.span.stop ≤ a.span.start

/-- A literal of a parsed source is a token of it, in quotes. -/
theorem literal_token {source : String} {tree : Tree} (h : Grammar.parseSource source = .ok tree)
    {token : Token} (ht : .leaf .regularStringLiteral token ∈ tree.preorder) :
    token ∈ (Lexer.tokenize source).tokens ∧
      (token.kind = .singleQuotedString ∨ token.kind = .doubleQuotedString) := by
  obtain ⟨-, hparse⟩ := parseSource_ok h
  obtain ⟨before, stop, after, hts, -, -, htokens, hsound⟩ := Grammar.parse_reads hparse
  constructor
  · have hmem : token ∈ tree.tokens := Tree.tokens_subset ht (by simp)
    rw [htokens] at hmem
    rw [hts]
    simp only [List.mem_append, List.mem_cons, List.not_mem_nil, or_false] at hmem ⊢
    tauto
  · simpa [Tree.Fits, Kind.holds] using hsound _ ht

section Slices

variable {cs front rest blanks : List Char} {last : Char} {token : Token} {p : DelimitedPattern}

theorem DelimitedPattern.WrittenIn.literalAt (hp : p.WrittenIn token blanks last)
    (hkind : token.kind = .singleQuotedString ∨ token.kind = .doubleQuotedString)
    (hcs : cs = front ++ token.text.toList ++ rest) (hstart : token.start = .after front)
    (hquoted : ∃ quote body, token.text.toList = quote :: body ++ [quote])
    (hlit : DelimitedPattern.ofLiteral (.leaf .regularStringLiteral token) = .ok p) :
    LiteralAt cs token front.length (front.length + (blanks.length + 2)) p := by
  refine ⟨hkind, ?_, ?_, ?_, hlit, blanks, last, hp, rfl⟩
  · simp [hcs, Token.length]
  · simp [hcs, hstart]
  · obtain ⟨quote, body, htext⟩ := hquoted
    have hhead := congrArg List.head? (htext.symm.trans hp.text)
    obtain rfl : quote = p.quote.mark := by simpa using hhead
    exact ⟨body, htext⟩

/-- Where the text of a pattern stands, in front of the closing delimiter. -/
theorem DelimitedPattern.WrittenIn.splits (hp : p.WrittenIn token blanks last)
    (hcs : cs = front ++ token.text.toList ++ rest) (hstart : token.start = .after front) :
    ∃ lead tail, cs = lead ++ (p.text.toList ++ tail) ∧ p.start = .after lead ∧
      lead.length = front.length + (blanks.length + 2) ∧
      lead.length + p.text.toList.length < front.length + token.length := by
  refine ⟨front ++ p.quote.mark :: (blanks ++ [p.openDelimiter]),
    p.closeDelimiter :: (p.modifiers.toList ++ last :: rest), ?_, ?_, ?_, ?_⟩
  · simp [hcs, hp.text]
  · rw [hp.start, hstart, Position.after_append]
  · simp
  · simp only [Token.length, hp.text, List.length_append, List.length_cons, List.length_nil]
    omega

/-- The place of a member that was read from the characters of a pattern. -/
theorem DelimitedPattern.WrittenIn.memberAt (hp : p.WrittenIn token blanks last)
    {u : ClassUnion} {e : ClassElement} (hcs : cs = front ++ token.text.toList ++ rest)
    (hstart : token.start = .after front) (he : e ∈ u.elements)
    (hlocated : e.Located p.characters) :
    MemberAt cs token front.length (front.length + (blanks.length + 2)) p u e ∧
      p.locationOf e.span = e.locationFrom cs (front.length + (blanks.length + 2)) := by
  obtain ⟨pre, taken, post, hchars, hne, htiled, hread⟩ := hlocated
  have hall : Tiled 0 p.characters (0 + p.text.toList.length) := decodeFrom_tiled p.quote 0 _
  rw [hchars, Nat.zero_add] at hall
  have hstop := hall.stop_le htiled hne
  have hlt := htiled.lt hne
  obtain ⟨lead, tail, hcs, hlead, hbase, hinside⟩ := hp.splits hcs hstart
  refine ⟨⟨he, by omega, hlt, by omega, pre, taken, post, hchars, htiled, hread, ?_⟩, ?_⟩
  · rw [hcs, ← hbase]
    exact (extract_of_append hstop _).trans (htiled.rawText_eq _).symm
  · rw [DelimitedPattern.locationOf, Nat.max_eq_left (Nat.le_of_lt hlt),
      DelimitedPattern.positionAt_eq hlead (by omega) tail,
      DelimitedPattern.positionAt_eq hlead hstop tail, ← hcs, hbase]
    rfl

end Slices

/-- A finding has two places or more, which lie in one literal. Each is where a member of one class
stands, and they do not overlap. -/
theorem findings_point_at_members {source : String} {tree : Tree} {findings : List Finding}
    {finding : Finding} (htree : Grammar.parseSource source = .ok tree)
    (hfindings : duplicatesInCharacterClass tree = .ok findings) (hmem : finding ∈ findings) :
    finding.secondaries ≠ [] ∧ PointsAtMembers source finding := by
  obtain ⟨p, hp, u, hu, members, hdup, hfind⟩ := mem_findings hfindings hmem
  have hlocations := finding_locations hfind
  have hne : members ≠ [] := by
    rintro rfl
    simp [Finding.locations] at hlocations
  obtain ⟨hlen, -⟩ := duplicates_several hdup hne
  constructor
  · intro hnone
    have := congrArg List.length hlocations
    simp [Finding.locations, hnone] at this
    omega
  obtain ⟨token, hleaf, hlit, hparsed, herrors⟩ := analysedPatterns_literal hp
  obtain ⟨htoken, hkind⟩ := literal_token htree hleaf
  have hstands := Lexer.tokenizeWith_stands (parseSource_ok htree).1 token htoken
  obtain ⟨front, rest, hcs, hstart⟩ := hstands.placed
  obtain ⟨token', blanks, last, htree', hwritten⟩ := DelimitedPattern.ofLiteral_writtenIn hlit
  cases htree'
  rw [hparsed] at hu herrors
  have hlocated : u.Located p.source.characters :=
    parseChars_located (decodeFrom_tiled p.source.quote 0 _) _ herrors u (Regex.mem_unions.mp hu)
  obtain ⟨hmembers, hdisjoint⟩ := duplicates_located hlocated hdup hne
  have hat (e : ClassElement) (he : e ∈ members) :=
    hwritten.memberAt hcs hstart (hmembers e he).1 (hmembers e he).2
  refine ⟨token, htoken, front.length, _, p.source,
    hwritten.literalAt hkind hcs hstart (hstands.quoted hkind) hlit, u, hu, members, ?_,
    fun e he => (hat e he).1, hdisjoint⟩
  rw [hlocations]
  exact List.map_congr_left fun e he => (hat e he).2

/-- Both ways to write the letter are found, on the second line and after a byte order mark. -/
theorem findings_point_at_members_escaped :
    let finding : Finding := ⟨⟨⟨2, 14⟩, ⟨2, 18⟩⟩, duplicatesMessage,
      [⟨⟨⟨2, 19⟩, ⟨2, 20⟩⟩, some duplicateMessage⟩]⟩
    finding.secondaries ≠ [] ∧
      PointsAtMembers "\ufeff<?php\npreg_match(\"/[\\x41bA]/i\", $text);" finding := by
  intro finding
  have h : ((Grammar.parseSource
      "\ufeff<?php\npreg_match(\"/[\\x41bA]/i\", $text);").toOption.bind fun tree =>
      (duplicatesInCharacterClass tree).toOption) = some [finding] := by decide +kernel
  obtain ⟨tree, htree, hfindings⟩ := Option.bind_eq_some_iff.mp h
  exact findings_point_at_members (eq_ok_of_toOption htree) (eq_ok_of_toOption hfindings) (.head _)

end Pattern

end PhpSyntax
