import PhpSyntax.Pattern.Parse
import PhpSyntax.Proofs.Pattern.Escapes
import PhpSyntax.Proofs.Pattern.Visit

namespace PhpSyntax.Pattern

open Reading Reader

/-- A member reader, standing before `cs` and `rest`, takes the characters `cs` and gives the
member. The reader of a quotation gives its characters one by one. -/
inductive ClassElement.ReadFrom (cs rest : List SourceChar) : ClassElement → Prop
  | bracket {r r' : Reader} {e : ClassElement} (hr : r.rest = cs ++ rest) (hr' : r'.rest = rest)
      (h : leadingBracket r = ([e], r')) : ReadFrom cs rest e
  | quoted {r r' : Reader} {c : SourceChar} {front : List SourceChar} {members : List Character}
      (hc : cs = [c]) (hr : r.rest = front ++ c :: rest) (h : quotation r = (members, r'))
      (hm : ⟨c.char.toNat, c.span⟩ ∈ members) : ReadFrom cs rest (.character ⟨c.char.toNat, c.span⟩)
  | single {r r' : Reader} {e : ClassElement} (hr : r.rest = cs ++ rest) (hr' : r'.rest = rest)
      (h : classMember r = (some e, r')) : ReadFrom cs rest e
  | inner {r r' : Reader} {e : ClassElement} (depth : Nat) (hr : r.rest = cs ++ rest)
      (hr' : r'.rest = rest) (h : innerClass (nestedReaders depth).brackets r = (e, r')) :
      ReadFrom cs rest e

/-- A member was read from some of the characters, and its stretch is theirs. -/
def ClassElement.Located (chars : List SourceChar) (e : ClassElement) : Prop :=
  ∃ pre cs post, chars = pre ++ cs ++ post ∧ cs ≠ [] ∧ Tiled e.span.start cs e.span.stop ∧
    e.ReadFrom cs post

/-- The members of a union were read one after the other, unless it is a single intersection. -/
def UnionOf.Located (chars : List SourceChar) (u : ClassUnion) : Prop :=
  (∃ operands s, u.elements = [.intersection operands s]) ∨
    (u.elements.Pairwise fun a b => a.span.stop ≤ b.span.start) ∧
      ∀ e ∈ u.elements, e.Located chars

variable {chars : List SourceChar} {r r' : Reader}

theorem ClassElement.Located.of_advances {e : ClassElement} (hr : Stands chars r)
    (h : Advances r r') (hlt : r'.rest.length < r.rest.length)
    (hspan : e.span = ⟨r.lastStop, r'.lastStop⟩)
    (hread : ∀ cs, r.rest = cs ++ r'.rest → e.ReadFrom cs r'.rest) : e.Located chars := by
  obtain ⟨cs, hrest, hlast⟩ := h.reads
  obtain ⟨pre, hpre⟩ := hr.suffix
  refine ⟨pre, cs, r'.rest, ?_, ?_, ?_, hread cs hrest⟩
  · rw [← hpre, hrest, List.append_assoc]
  · rintro rfl
    simp [hrest] at hlt
  · have ht := hr.tiled
    rw [hrest, tiled_append, ← hlast] at ht
    rw [hspan]
    exact ht.1

def Reader.seesClassEscape (r : Reader) : Prop :=
  r.head? = some '\\' ∧ ∃ letter, r.peek? 1 = some letter ∧ isClassEscape letter

theorem classAtom_does (hr : Stands chars r) (hne : r.rest ≠ []) :
    Does r classAtom fun a r' => ∃ e, a = some e ∧ e.span = ⟨r.lastStop, r'.lastStop⟩ ∧
      r'.rest.length < r.rest.length ∧
      ((∃ c, e = .character c) ∨ (∃ c, e = .escapedClass c) ∧ r.seesClassEscape) := by
  refine .get ?_
  rw [hr.offset_eq]
  dsimp only
  split
  · rename_i h
    simp [head?, peek?] at h
    exact (hne h).elim
  · rename_i hslash
    refine .skip (.get ?_)
    split
    · exact .expected (.pure _)
    · rename_i letter hletter
      have hrest : (r.skip 1).rest ≠ [] := rest_ne_nil_of_peek hletter
      split
      · rename_i hclass
        refine .bind (escapedClass_does r.lastStop letter) fun e r' h => .pure fun _ hspan => ?_
        obtain ⟨hs, hlt⟩ := hr.spanFrom_of_skip hne h
        refine ⟨_, rfl, hspan.trans hs, hlt, .inr ⟨⟨e, rfl⟩, hslash, letter, ?_, hclass⟩⟩
        simpa [head?] using hletter
      split
      · refine .skip (.spanFrom (.pure fun _ => ?_))
        obtain ⟨hs, hlt⟩ := hr.spanFrom_of_skip hne (.skip _ 1)
        exact ⟨_, rfl, hs, hlt, .inl ⟨_, rfl⟩⟩
      split
      · refine .moves (digits_moves 8 3) fun code r' h => .spanFrom (.pure fun _ => ?_)
        obtain ⟨hs, hlt⟩ := hr.spanFrom_of_skip hne h
        exact ⟨_, rfl, hs, hlt, .inl ⟨_, rfl⟩⟩
      · refine .bind (characterEscape_does r.lastStop hrest) fun c r' h => .pure ?_
        rintro - ⟨code, rfl⟩
        obtain ⟨hs, hlt⟩ := hr.spanFrom_of_skip hne h
        exact ⟨_, rfl, hs, hlt, .inl ⟨_, rfl⟩⟩
  · refine ⟨.skip r 1, fun _ => ?_⟩
    exact ⟨_, rfl, hr.currentSpan_eq hne, length_skip_lt hne Nat.one_pos, .inl ⟨_, rfl⟩⟩

theorem seesRange_next (h : r.seesRange) :
    (r.skip 1).rest ≠ [] ∧ ¬ (r.skip 1).seesClassEscape := by
  simp only [seesRange, Bool.and_eq_true] at h
  obtain ⟨-, h⟩ := h
  constructor
  · intro hnil
    have hpeek : r.peek? 1 = none := by
      have := peek_skip r 1 0
      simpa [peek?, hnil] using this.symm
    simp [hpeek] at h
  · rintro ⟨hslash, letter, hletter, hclass⟩
    simp only [head?, peek_skip] at hslash hletter
    simp [hslash, hletter, hclass] at h

theorem classMember_does (hr : Stands chars r) (hne : r.rest ≠ []) :
    Does r classMember fun a r' => ∃ e, a = some e ∧ e.span = ⟨r.lastStop, r'.lastStop⟩ ∧
      r'.rest.length < r.rest.length ∧ ∀ P, (Part.member e).Holds P := by
  refine .bind (classAtom_does hr hne) fun a r₁ h₁ => ?_
  split
  · rename_i first
    refine .get ?_
    split
    · rename_i hrange
      obtain ⟨hne₁, hno⟩ := seesRange_next hrange
      have hr₁ := (hr.advance h₁).advance (.skip r₁ 1)
      refine .skip (.bind (classAtom_does hr₁ hne₁) fun b r₂ h₂ => ?_)
      split
      · refine .pure ?_
        rintro - ⟨e₂, he₂, hspan₂, hlt₂, -⟩ ⟨e₁, he₁, hspan₁, hlt₁, -⟩
        cases he₁
        cases he₂
        have hstart : first.span.start = r.lastStop := congrArg Span.start hspan₁
        have hstop : Span.stop _ = r₂.lastStop := congrArg Span.stop hspan₂
        have hle := (Advances.skip r₁ 1).length_le
        refine ⟨_, rfl, ?_, by omega, fun P => Part.holds_member.mpr (Part.holds_range _)⟩
        exact congrArg₂ Span.mk hstart hstop
      · refine .pure ?_
        rintro - ⟨e₂, rfl, -, -, h⟩
        obtain ⟨c, rfl⟩ | ⟨-, h⟩ := h
        · simp_all
        · exact (hno h).elim
    · refine .pure ?_
      rintro - ⟨e, he, hspan, hlt, -⟩
      cases he
      exact ⟨_, rfl, hspan, hlt, Part.holds_member_character _⟩
  · refine .pure ?_
    rintro - ⟨e, rfl, hspan, hlt, ⟨c, rfl⟩ | ⟨⟨c, rfl⟩, -⟩⟩
    · simp_all
    · exact ⟨_, rfl, hspan, hlt, fun P => Part.holds_member.mpr
        (Part.holds_of_children_eq_nil rfl nofun)⟩

structure NewMembers (chars : List SourceChar) (r : Reader) (es : List ClassElement)
    (r' : Reader) : Prop where
  ordered : es.Pairwise fun a b => a.span.stop ≤ b.span.start
  located : ∀ e ∈ es, e.Located chars
  after : ∀ e ∈ es, r.lastStop ≤ e.span.start
  before : ∀ e ∈ es, e.span.stop ≤ r'.lastStop
  inside : ∀ e ∈ es, (Part.member e).Holds (UnionOf.Located chars)

theorem NewMembers.nil (chars : List SourceChar) (r r' : Reader) : NewMembers chars r [] r' :=
  ⟨.nil, nofun, nofun, nofun, nofun⟩

theorem NewMembers.single {e : ClassElement} (hspan : e.span = ⟨r.lastStop, r'.lastStop⟩)
    (hlocated : e.Located chars) (hinside : (Part.member e).Holds (UnionOf.Located chars)) :
    NewMembers chars r [e] r' := by
  refine ⟨List.pairwise_singleton _ _, ?_, ?_, ?_, ?_⟩
  · simpa using hlocated
  · simp [hspan]
  · simp [hspan]
  · simpa using hinside

theorem NewMembers.of_advances {r₁ : Reader} {es : List ClassElement}
    (hes : NewMembers chars r₁ es r') (hr : Stands chars r) (h : Advances r r₁) :
    NewMembers chars r es r' :=
  { hes with after := fun e he => Nat.le_trans (hr.lastStop_le h) (hes.after e he) }

theorem singleMember_does (hr : Stands chars r) (hne : r.rest ≠ []) :
    Does r classMember fun a r' => NewMembers chars r a.toList r' := by
  refine (classMember_does hr hne).run.imp ?_
  rintro a r' h ⟨hrun, e, rfl, hspan, hlt, hinside⟩
  exact .single hspan (.of_advances hr h hlt hspan fun cs hcs => .single hcs rfl hrun) (hinside _)

theorem leadingBracket_eq (r : Reader) :
    leadingBracket r = if r.sees ']' then
      ([.character ⟨(']' : Char).toNat, r.currentSpan⟩], r.skip 1) else ([], r) := by
  change (if r.sees ']' then _ else _ : Reading (List ClassElement)) r = _
  split <;> rfl

theorem leadingBracket_does (hr : Stands chars r) :
    Does r leadingBracket fun es r' => NewMembers chars r es r' := by
  have hrun := leadingBracket_eq r
  unfold Does
  by_cases hsees : r.sees ']'
  · have hne : r.rest ≠ [] := rest_ne_nil_of_head (of_decide_eq_true hsees)
    have hspan := hr.currentSpan_eq hne
    rw [if_pos hsees] at hrun
    rw [hrun]
    refine ⟨.skip r 1, fun _ => ?_⟩
    refine .single hspan ?_ (Part.holds_member_character _ _)
    exact .of_advances hr (.skip r 1) (length_skip_lt hne Nat.one_pos) hspan
      fun cs hcs => .bracket hcs rfl hrun
  · rw [if_neg hsees] at hrun
    rw [hrun]
    exact ⟨.refl r, fun _ => .nil ..⟩

/-- Quoted characters are members of their own. -/
theorem newMembers_quoted (hr : Stands chars r) (n k : Nat)
    (hread : ∀ c ∈ r.rest.take n, ∀ front rest, r.rest = front ++ c :: rest →
      ClassElement.ReadFrom [c] rest (.character ⟨c.char.toNat, c.span⟩)) :
    NewMembers chars r (((r.rest.take n).map fun c => ⟨c.char.toNat, c.span⟩).map .character)
      (r.skip (n + k)) := by
  have ht := hr.tiled_take n
  rw [List.map_map]
  constructor
  · rw [List.pairwise_map]
    exact ht.ordered
  · intro e he
    obtain ⟨c, hc, rfl⟩ := List.mem_map.mp he
    obtain ⟨pre, hpre⟩ := hr.suffix
    obtain ⟨as, bs, hsplit⟩ := List.append_of_mem (List.mem_of_mem_take hc)
    refine ⟨pre ++ as, [c], bs, ?_, by simp, ⟨rfl, (ht.mem c hc).2.1, rfl⟩,
      hread c hc as bs hsplit⟩
    simp [← hpre, hsplit]
  · intro e he
    obtain ⟨c, hc, rfl⟩ := List.mem_map.mp he
    exact (ht.mem c hc).1
  · intro e he
    obtain ⟨c, hc, rfl⟩ := List.mem_map.mp he
    have hc : c ∈ r.rest.take (n + k) := List.take_subset_take_left r.rest (Nat.le_add_right n k) hc
    exact ((hr.tiled_take (n + k)).mem c hc).2.2
  · intro e he
    obtain ⟨c, -, rfl⟩ := List.mem_map.mp he
    exact Part.holds_member_character _ _

theorem quotation_does (hr : Stands chars r) :
    Does r quotation fun cs r' => NewMembers chars r (cs.map .character) r' := by
  refine .skip ⟨.skip _ _, fun _ => ?_⟩
  have hread : ∀ c ∈ (r.skip 2).rest.take (quotedLength (r.skip 2).rest).1, ∀ front rest,
      (r.skip 2).rest = front ++ c :: rest →
        ClassElement.ReadFrom [c] rest (.character ⟨c.char.toNat, c.span⟩) := by
    intro c hc front rest hrest
    have hr : r.rest = (r.rest.take 2 ++ front) ++ c :: rest := by
      rw [List.append_assoc, ← hrest]
      exact (List.take_append_drop 2 r.rest).symm
    exact .quoted rfl hr rfl (List.mem_map.mpr ⟨c, hc, rfl⟩)
  have h := newMembers_quoted (hr.advance (.skip r 2)) (quotedLength (r.skip 2).rest).1
    (quotedLength (r.skip 2).rest).2 hread
  exact h.of_advances hr (.skip r 2)

def BracketsFit (chars : List SourceChar) (depth : Nat) : Prop :=
  ∀ r, Stands chars r → r.rest ≠ [] → r.rest.length < depth →
    Does r (nestedReaders depth).brackets fun c r' =>
      c.span = ⟨r.lastStop, r'.lastStop⟩ ∧ r'.rest.length < r.rest.length ∧
        (Part.union c.union).Holds (UnionOf.Located chars)

theorem posix_length {name : String} {negated : Bool} {n : Nat}
    (h : r.posix? = some (name, negated, n)) : 0 < n := by
  simp only [posix?, bind, Option.bind_eq_some_iff] at h
  obtain ⟨_, -, _, -, h⟩ := h
  cases h
  omega

theorem innerClass_span {depth : Nat} (hb : BracketsFit chars depth) (hr : Stands chars r)
    (hne : r.rest ≠ []) (hlt : r.rest.length < depth) :
    Does r (innerClass (nestedReaders depth).brackets) fun e r' =>
      e.span = ⟨r.lastStop, r'.lastStop⟩ ∧ r'.rest.length < r.rest.length ∧
        (Part.member e).Holds (UnionOf.Located chars) := by
  refine .get ?_
  split
  · rename_i name negated n hposix
    refine .skip (.spanFrom (.pure fun _ => ⟨?_, length_skip_lt hne (posix_length hposix), ?_⟩))
    · rw [hr.offset_eq]
      exact hr.spanFrom_eq (.skip r n)
    · exact Part.holds_member.mpr (Part.holds_of_children_eq_nil rfl nofun)
  · refine .bind (hb r hr hne hlt) fun c r' _ => .pure ?_
    rintro - ⟨hspan, hlt, hinside⟩
    exact ⟨hspan, hlt, Part.holds_member.mpr (Part.holds_characterClass.mpr hinside)⟩

theorem innerClass_does {depth : Nat} (hb : BracketsFit chars depth) (hr : Stands chars r)
    (hne : r.rest ≠ []) (hlt : r.rest.length < depth) :
    Does r (innerClass (nestedReaders depth).brackets) fun e r' => NewMembers chars r [e] r' := by
  refine (innerClass_span hb hr hne hlt).run.imp ?_
  rintro e r' h ⟨hrun, hspan, hlt, hinside⟩
  exact .single hspan (.of_advances hr h hlt hspan fun cs hcs => .inner depth hcs rfl hrun) hinside

/-- The members of a draft were read one after the other, and the last of them before `r`. -/
structure ClassDraft.Fits (chars : List SourceChar) (r : Reader) (d : ClassDraft) : Prop where
  ordered : d.elements.Pairwise fun a b => a.span.stop ≤ b.span.start
  located : ∀ e ∈ d.elements, e.Located chars
  before : ∀ e ∈ d.elements, e.span.stop ≤ r.lastStop
  inside : ∀ e ∈ d.elements, (Part.member e).Holds (UnionOf.Located chars)
  operands : ∀ u ∈ d.operands, (Part.union u).Holds (UnionOf.Located chars)

namespace ClassDraft.Fits

variable {d : ClassDraft} {es : List ClassElement}

theorem advance (hd : d.Fits chars r) (hr : Stands chars r) (h : Advances r r') :
    d.Fits chars r' :=
  { hd with before := fun e he => Nat.le_trans (hd.before e he) (hr.lastStop_le h) }

theorem add (hd : d.Fits chars r) (hr : Stands chars r) (h : Advances r r')
    (hes : NewMembers chars r es r') : (d.add es).Fits chars r' := by
  refine ⟨?_, ?_, ?_, ?_, hd.operands⟩
  · refine List.pairwise_append.mpr ⟨hd.ordered, hes.ordered, fun a ha b hb => ?_⟩
    exact Nat.le_trans (hd.before a ha) (hes.after b hb)
  · exact List.forall_mem_append.mpr ⟨hd.located, hes.located⟩
  · exact List.forall_mem_append.mpr ⟨(hd.advance hr h).before, hes.before⟩
  · exact List.forall_mem_append.mpr ⟨hd.inside, hes.inside⟩

theorem operand (hd : d.Fits chars r) (flags : Flags) (s : Span) :
    (Part.union ⟨d.elements, flags, s⟩).Holds (UnionOf.Located chars) :=
  Part.holds_union.mpr ⟨.inr ⟨hd.ordered, hd.located⟩, hd.inside⟩

theorem next (hd : d.Fits chars r) (flags : Flags) (s : Span) (start : Nat) :
    Fits chars r ⟨d.operands ++ [⟨d.elements, flags, s⟩], start, []⟩ := by
  refine ⟨.nil, nofun, nofun, nofun, List.forall_mem_append.mpr ⟨hd.operands, ?_⟩⟩
  simpa using hd.operand flags s

theorem union (hd : d.Fits chars r) (flags : Flags) (start stop : Nat) :
    (Part.union (d.union flags start stop)).Holds (UnionOf.Located chars) := by
  unfold ClassDraft.union
  dsimp only
  split
  · exact hd.operand flags _
  · refine Part.holds_union.mpr ⟨.inl ⟨_, _, rfl⟩, ?_⟩
    simp only [List.mem_singleton, forall_eq]
    exact Part.holds_member.mpr (Part.holds_intersection.mpr
      (hd.next flags ⟨d.start, stop⟩ start).operands)

end ClassDraft.Fits

section Moves

variable {R : Reader → Reader → Prop} [ReadingOrder R]

theorem skipClassBlanks_moves : MovesIn R skipClassBlanks :=
  .bind .get fun _ => .ite (.skip _) (.pure _)

theorem leadingBracket_moves : MovesIn R leadingBracket :=
  .bind .get fun _ => .ite (.bind (.plainCharacter _) fun _ => .pure _) (.pure _)

theorem classAtom_moves : MovesIn R classAtom := by
  refine .bind .get fun r => ?_
  dsimp only
  split
  · exact .pure _
  · refine .bind (.skip 1) fun _ => .bind .get fun r' => ?_
    split
    · exact .bind (.expected _) fun _ => .pure _
    · refine .ite (.bind (escapedClass_moves _ _) fun _ => .pure _) ?_
      refine .ite (.bind (.skip 1) fun _ => .bind (.spanFrom _) fun _ => .pure _) ?_
      refine .ite (.bind (digits_moves 8 3) fun _ => .bind (.spanFrom _) fun _ => .pure _) ?_
      exact .bind (characterEscape_moves _) fun _ => .pure _
  · exact .bind (.plainCharacter _) fun _ => .pure _

theorem classMember_moves : MovesIn R classMember := by
  refine .bind classAtom_moves fun a => ?_
  split
  · refine .bind .get fun r => .ite (.bind (.skip 1) fun _ => ?_) (.pure _)
    refine .bind classAtom_moves fun b => ?_
    split
    · exact .pure _
    · exact .pure _
  · exact .pure _

theorem innerClass_moves {inner : Reading CharacterClass} (hinner : MovesIn R inner) :
    MovesIn R (innerClass inner) := by
  refine .bind .get fun r => ?_
  split
  · exact .bind (.skip _) fun _ => .bind (.spanFrom _) fun _ => .pure _
  · exact .bind hinner fun _ => .pure _

theorem classMembers_moves {inner : Reading CharacterClass} (hinner : MovesIn R inner)
    (rounds : Nat) (draft : ClassDraft) : MovesIn R (classMembers inner rounds draft) := by
  induction rounds generalizing draft with
  | zero => exact .bind .get fun _ => .pure _
  | succ rounds ih =>
    refine .bind skipClassBlanks_moves fun _ => .bind .get fun r => ?_
    dsimp only
    split
    · exact .bind (.expected _) fun _ => .pure _
    · exact .bind (.skip 1) fun _ => .pure _
    · exact .bind (.skip 2) fun _ => .bind .get fun _ => ih _
    · exact .bind (innerClass_moves hinner) fun _ => ih _
    · exact .bind quotation_moves fun _ => ih _
    · exact .bind (.skip 2) fun _ => ih _
    · exact .bind classMember_moves fun _ => ih _

theorem bracketsWith_moves {inner : Reading CharacterClass} (hinner : MovesIn R inner) :
    MovesIn R (bracketsWith inner) :=
  .bind .get fun _ => .bind (.skip 1) fun _ => .bind (.eat _) fun _ => .bind .get fun _ =>
    .bind leadingBracket_moves fun _ => .bind .get fun _ =>
      .bind (classMembers_moves hinner _ _) fun _ => .bind .get fun _ => .pure _

end Moves

def ClassElement.isSimple : ClassElement → Bool
  | .nested _ | .intersection .. => false
  | _ => true

theorem Part.holds_of_isSimple {P : ClassUnion → Prop} {e : ClassElement} (h : e.isSimple) :
    (member e).Holds P := by
  refine holds_member.mpr ?_
  cases e with
  | character c => exact holds_character c
  | range r => exact holds_range r
  | escapedClass e => exact holds_of_children_eq_nil rfl nofun
  | posix p => exact holds_of_children_eq_nil rfl nofun
  | nested c => exact absurd h Bool.false_ne_true
  | intersection operands s => exact absurd h Bool.false_ne_true

section Simple

variable {clean : Prop}

theorem classAtom_simple : Forms clean classAtom fun a => ∀ e ∈ a, e.isSimple := by
  refine .get fun r => ?_
  dsimp only
  split
  · exact .pure nofun
  · refine .moves (.skip 1) fun _ => .get fun r' => ?_
    split
    · exact .moves (.expected _) fun _ => .pure nofun
    split
    · exact .moves (escapedClass_moves _ _) fun _ => .pure (by simp [ClassElement.isSimple])
    split
    · exact .moves (.skip 1) fun _ => .moves (.spanFrom _) fun _ =>
        .pure (by simp [ClassElement.isSimple])
    split
    · exact .moves (digits_moves 8 3) fun _ => .moves (.spanFrom _) fun _ =>
        .pure (by simp [ClassElement.isSimple])
    · refine .moves (characterEscape_moves _) fun c => .pure fun e he => ?_
      obtain ⟨c, -, rfl⟩ := Option.map_eq_some_iff.mp he
      rfl
  · exact .moves (.plainCharacter _) fun _ => .pure (by simp [ClassElement.isSimple])

theorem classMember_simple : Forms clean classMember fun a => ∀ e ∈ a, e.isSimple := by
  refine .bind classAtom_simple fun a => ?_
  split
  · refine .get fun r => ?_
    split
    · refine .moves (.skip 1) fun _ => .moves classAtom_moves fun b => ?_
      split
      · exact .pure fun _ => by simp [ClassElement.isSimple]
      · exact .pure id
    · exact .pure id
  · exact .pure id

theorem leadingBracket_simple : Forms clean leadingBracket fun es => ∀ e ∈ es, e.isSimple := by
  refine .get fun r => ?_
  split
  · exact .moves (.plainCharacter _) fun _ => .pure (by simp [ClassElement.isSimple])
  · exact .pure nofun

end Simple

theorem classMembers_does {depth : Nat} (hb : BracketsFit chars depth) (rounds : Nat)
    (draft : ClassDraft) (hr : Stands chars r) (hlt : r.rest.length < depth) :
    Does r (classMembers (nestedReaders depth).brackets rounds draft) fun result r' =>
      draft.Fits chars r → result.1.Fits chars r' := by
  induction rounds generalizing r draft with
  | zero => exact .get (.pure fun _ h => h)
  | succ rounds ih =>
    refine .moves skipClassBlanks_moves fun _ r₁ h₁ => .get ?_
    have hr₁ := hr.advance h₁
    have hlt₁ : r₁.rest.length < depth := Nat.lt_of_le_of_lt h₁.length_le hlt
    dsimp only
    split
    · exact .expected (.pure _)
    · exact .skip (.pure fun _ hd => hd.advance hr (h₁.trans (.skip r₁ 1)))
    · have h₂ : Advances r₁ (r₁.skip 2) := .skip r₁ 2
      refine .skip (.get ?_)
      refine (ih _ (hr₁.advance h₂) (Nat.lt_of_le_of_lt h₂.length_le hlt₁)).imp ?_
      intro _ _ _ h hd
      exact h ((hd.next _ _ _).advance hr (h₁.trans h₂))
    · rename_i hhead
      have hne : r₁.rest ≠ [] := rest_ne_nil_of_head hhead
      refine .bind (innerClass_does hb hr₁ hne hlt₁) fun e r₂ h₂ => ?_
      refine (ih _ (hr₁.advance h₂) (Nat.lt_of_le_of_lt h₂.length_le hlt₁)).imp ?_
      intro _ _ _ h hnew hd
      exact h ((hd.advance hr h₁).add hr₁ h₂ hnew)
    · refine .bind (quotation_does hr₁) fun es r₂ h₂ => ?_
      refine (ih _ (hr₁.advance h₂) (Nat.lt_of_le_of_lt h₂.length_le hlt₁)).imp ?_
      intro _ _ _ h hnew hd
      exact h ((hd.advance hr h₁).add hr₁ h₂ hnew)
    · have h₂ : Advances r₁ (r₁.skip 2) := .skip r₁ 2
      refine .skip ?_
      refine (ih _ (hr₁.advance h₂) (Nat.lt_of_le_of_lt h₂.length_le hlt₁)).imp ?_
      intro _ _ _ h hd
      exact h (hd.advance hr (h₁.trans h₂))
    · have hne : r₁.rest ≠ [] := rest_ne_nil_of_head ‹r₁.head? = some _›
      refine .bind (singleMember_does hr₁ hne) fun e r₂ h₂ => ?_
      refine (ih _ (hr₁.advance h₂) (Nat.lt_of_le_of_lt h₂.length_le hlt₁)).imp ?_
      intro _ _ _ h hnew hd
      exact h ((hd.advance hr h₁).add hr₁ h₂ hnew)

theorem bracketsWith_does {depth : Nat} (hb : BracketsFit chars depth) (hr : Stands chars r)
    (hne : r.rest ≠ []) (hlt : r.rest.length < depth + 1) :
    Does r (bracketsWith (nestedReaders depth).brackets) fun c r' =>
      c.span = ⟨r.lastStop, r'.lastStop⟩ ∧ r'.rest.length < r.rest.length ∧
        (Part.union c.union).Holds (UnionOf.Located chars) := by
  refine .get (.skip (.moves (.eat _) fun negated r₁ h₁ => .get ?_))
  have hr₁ := (hr.advance (.skip r 1)).advance h₁
  have hlt₁ := (hr.spanFrom_of_skip hne h₁).2
  refine .bind (leadingBracket_does hr₁) fun first r₂ h₂ => .get ?_
  have hle₂ := h₂.length_le
  refine .bind (classMembers_does hb _ _ (hr₁.advance h₂) (by omega)) fun result r₃ h₃ => .get ?_
  refine .pure fun _ hdraft hfirst => ?_
  obtain ⟨hspan, hlt₃⟩ := hr.spanFrom_of_skip hne (h₁.trans (h₂.trans h₃))
  refine ⟨?_, hlt₃, ?_⟩
  · rw [hr.offset_eq]
    exact hspan
  · refine (hdraft ?_).union _ _ _
    exact ⟨hfirst.ordered, hfirst.located, hfirst.before, hfirst.inside, nofun⟩

theorem bracketsFit (chars : List SourceChar) (depth : Nat) : BracketsFit chars depth := by
  induction depth with
  | zero => exact fun r _ _ hlt => (Nat.not_lt_zero _ hlt).elim
  | succ depth ih => exact fun r hr hne hlt => bracketsWith_does ih hr hne hlt

end PhpSyntax.Pattern
