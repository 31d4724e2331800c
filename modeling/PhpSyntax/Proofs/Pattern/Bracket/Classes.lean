import PhpSyntax.Proofs.Pattern.Bracket.Escaped
import PhpSyntax.Proofs.Pattern.Moved.Classes

namespace PhpSyntax.Pattern

open Reading Reader

variable {f : ℕ →o ℕ} {s s' : Span} {r : Reader}

section Bracket

variable (h : r.SeesBracket f s s')
include h

theorem leadingBracket_sees : leadingBracket r = ([.character r.bracket], r.skip 1) := by
  change (if r.sees ']' then _ else _ : Reading (List ClassElement)) r = _
  rw [if_pos h.sees]
  rfl

theorem classAtom_escaped :
    classAtom (r.escapeAt f s s' 0) =
      (some (.character (r.bracket.move f)), (r.skip 1).move f) := by
  have hrun : classAtom (r.escapeAt f s s' 0) =
      (some (.character ⟨(']' : Char).toNat, ((r.escapeAt f s s' 0).skip 2).spanFrom s.start⟩),
        (r.escapeAt f s s' 0).skip 2) := rfl
  rw [hrun, h.skip_eq, h.spanFrom_eq]
  rfl

end Bracket

theorem ClassDraft.leading_move (d : ClassDraft) :
    (d.move f).leading = d.leading.map (·.move f) := by
  obtain ⟨operands, start, elements⟩ := d
  cases operands <;> rfl

def classOf (negated : Bool) (start unionStart : Nat) (read : (ClassDraft × Nat) × Reader) :
    CharacterClass × Reader :=
  (⟨negated, read.1.1.union read.2.flags unionStart read.1.2, read.2.spanFrom start⟩, read.2)

theorem classOf_move (negated : Bool) (start unionStart : Nat)
    (read : (ClassDraft × Nat) × Reader) :
    classOf negated (f start) (f unionStart)
        (Prod.map (ClassDraft.move f) f read.1, read.2.move f) =
      Prod.map (moveClass f) (Reader.move f) (classOf negated start unionStart read) := by
  simp [classOf, ClassDraft.move_union, moveClass]

theorem bracketsWith_eq {r' r'' : Reader} {negated : Bool} {first : List ClassElement}
    (hcaret : eat '^' (r.skip 1) = (negated, r')) (hfirst : leadingBracket r' = (first, r''))
    (inner : Reading CharacterClass) :
    bracketsWith inner r = classOf negated r.offset r'.offset
      (classMembers inner (r''.rest.length + 1) ⟨[], r'.offset, first⟩ r'') := by
  rw [bracketsWith, bind_eq (x := get) rfl, bind_eq (x := skip 1) rfl, bind_eq hcaret,
    bind_eq (x := get) rfl, bind_eq hfirst]
  rfl

namespace Reader.OpensBracket

variable {negated : Bool} (h : r.OpensBracket f s s' negated)
include h

theorem bracketsWith_eq (inner : Reading CharacterClass) :
    bracketsWith inner r = classOf negated r.offset (r.skip (negated.toNat + 1)).offset
      (classMembers inner ((r.skip (negated.toNat + 2)).rest.length + 1)
        ⟨[], (r.skip (negated.toNat + 1)).offset,
          [.character (r.skip (negated.toNat + 1)).bracket]⟩ (r.skip (negated.toNat + 2))) := by
  have hfirst := leadingBracket_sees h.bracket
  rw [skip_skip] at hfirst
  exact Pattern.bracketsWith_eq h.eat_eq hfirst inner

theorem bracketsWith_escaped (inner : Reading CharacterClass) :
    bracketsWith inner (r.escapeAt f s s' (negated.toNat + 1)) =
      classOf negated (f r.offset) (f (r.skip (negated.toNat + 1)).offset)
        (classMembers inner ((r.skip (negated.toNat + 2)).rest.length + 3)
          ⟨[], f (r.skip (negated.toNat + 1)).offset, []⟩
          ((r.skip (negated.toNat + 1)).escapeAt f s s' 0)) := by
  have hfirst : leadingBracket ((r.skip (negated.toNat + 1)).escapeAt f s s' 0) =
      ([], (r.skip (negated.toNat + 1)).escapeAt f s s' 0) := rfl
  have hrun := Pattern.bracketsWith_eq h.eat_escaped hfirst inner
  rwa [escapeAt_offset _ h.rest_ne_nil, h.bracket.offset_eq, escapeAt_zero_length,
    skip_skip] at hrun

end Reader.OpensBracket

section Members

variable {n : Nat} {inner : Reading CharacterClass} (h : r.SeesBracket f s s')
  (hinner : ∀ r, Carries f (moveClass f) r inner inner) (hagree : BracketsAgree n inner inner)
include h

theorem classMembers_escaped (hrange : ¬ (r.skip 1).seesRange) (rounds : Nat)
    (draft : ClassDraft) :
    classMembers inner (rounds + 1) draft (r.escapeAt f s s' 0) =
      classMembers inner rounds (draft.add [.character (r.bracket.move f)])
        ((r.skip 1).move f) := by
  have hrange' : ¬ ((r.skip 1).move f).seesRange := by rwa [move_seesRange]
  rw [classMembers_member (seesMember_escaped f s s' r),
    classMember_single (classAtom_escaped h) hrange']
  rfl

include hinner hagree

/-- Where no range follows, the rest of the class is read alike. -/
theorem classMembers_meets (hrange : ¬ (r.skip 1).seesRange) (hlt : (r.skip 1).rest.length < n)
    (start : Nat) :
    Meets f (Prod.map (ClassDraft.move f) f) (r.skip 1) (r.escapeAt f s s' 0)
      (classMembers inner ((r.skip 1).rest.length + 1) ⟨[], start, [.character r.bracket]⟩)
      (classMembers inner ((r.skip 1).rest.length + 3) ⟨[], f start, []⟩) := by
  have hread := (classMembers_agrees hagree ⟨[], start, [.character r.bracket]⟩ hlt
    (Nat.lt_succ_self _) (Nat.lt_add_of_pos_right (Nat.succ_pos 1))).same
  rw [Meets, classMembers_escaped h hrange]
  exact Carries.congr hread (classMembers_carries hinner _ _)

omit h in
/-- Nothing that is read from `t` on depends on where it was written, nor on more rounds. -/
theorem leadingMembers_length {t : Reader} {rounds rounds' : Nat} (hlt : t.rest.length < n)
    (hrounds : t.rest.length < rounds) (hrounds' : t.rest.length < rounds') (start : Nat) :
    (leadingMembers inner rounds' ⟨[], f start, []⟩ (t.move f)).length =
      (leadingMembers inner rounds ⟨[], start, []⟩ t).length := by
  have hread := (classMembers_agrees hagree ⟨[], start, []⟩ hlt hrounds hrounds').same
  have hmove : classMembers inner rounds' ⟨[], f start, []⟩ (t.move f) = _ :=
    classMembers_carries hinner rounds' ⟨[], start, []⟩
  rw [leadingMembers, hmove, leadingMembers, hread]
  exact (congrArg List.length (ClassDraft.leading_move _)).trans (List.length_map _)

omit h hinner hagree in
theorem classAtom_second :
    classAtom (((r.skip 1).move f).skip 1) =
      ((classAtom ((r.skip 1).skip 1)).1.map (·.move f),
        (classAtom ((r.skip 1).skip 1)).2.move f) := by
  rw [move_skip]
  exact classAtom_carries

omit hinner hagree in
theorem leadingMembers_range {last : Character} {t : Reader} (hrange : (r.skip 1).seesRange)
    (hlast : classAtom ((r.skip 1).skip 1) = (some (.character last), t)) (rounds start : Nat) :
    ∃ range es, leadingMembers inner (rounds + 1) ⟨[], start, []⟩ (r.escapeAt f s s' 0) =
      .range range :: es := by
  have hrange' : ((r.skip 1).move f).seesRange := by rwa [move_seesRange]
  have hsecond := classAtom_second (f := f) (r := r)
  rw [hlast] at hsecond
  rw [leadingMembers_member (seesMember_escaped f s s' r),
    classMember_range (classAtom_escaped h) hrange' hsecond]
  exact ⟨_, _, rfl⟩

/-- Where the end of the range has a fault, the hyphen is a member after the bracket, and none after
the escaped bracket. -/
theorem leadingMembers_broken {t : Reader} (hrange : (r.skip 1).seesRange)
    (hlast : classAtom ((r.skip 1).skip 1) = (none, t)) (hlt : (r.skip 1).rest.length < n)
    (start : Nat) :
    ∃ c es, leadingMembers inner ((r.skip 1).rest.length + 3) ⟨[], f start, []⟩
        (r.escapeAt f s s' 0) = .character c :: es ∧ es.length + 1 =
      (leadingMembers inner ((r.skip 1).rest.length + 1) ⟨[], start, []⟩ (r.skip 1)).length := by
  have hrange' : ((r.skip 1).move f).seesRange := by rwa [move_seesRange]
  have hsecond := classAtom_second (f := f) (r := r)
  rw [hlast] at hsecond
  refine ⟨r.bracket.move f, leadingMembers inner ((r.skip 1).rest.length + 2) ⟨[], f start, []⟩
    (t.move f), ?_, ?_⟩
  · rw [leadingMembers_member (seesMember_escaped f s s' r),
      classMember_range (classAtom_escaped h) hrange' hsecond]
    rfl
  · have hne := (seesRange_next hrange).1
    have hhyphen := length_skip_lt (rest_ne_nil_of_head (seesRange_head? hrange))
      Nat.one_pos
    have htakes : t.rest.length < ((r.skip 1).skip 1).rest.length := by
      have h := (classAtom_takes hne).ensures
      rwa [hlast] at h
    obtain ⟨rounds, hrounds⟩ := Nat.exists_eq_succ_of_ne_zero (Nat.ne_zero_of_lt hhyphen)
    rw [hrounds, leadingMembers_hyphen hrange hlast, List.length_cons,
      leadingMembers_length hinner hagree] <;> omega

/-- The first member is a range with the escaped bracket, or there is one member fewer. -/
theorem leadingMembers_differ (hrange : (r.skip 1).seesRange) (hlt : (r.skip 1).rest.length < n)
    (start : Nat) :
    ∃ e es, leadingMembers inner ((r.skip 1).rest.length + 3) ⟨[], f start, []⟩
        (r.escapeAt f s s' 0) = e :: es ∧
      ((∃ range, e = .range range) ∨ (∃ c, e = .character c) ∧ es.length + 1 =
        (leadingMembers inner ((r.skip 1).rest.length + 1) ⟨[], start, []⟩ (r.skip 1)).length) := by
  obtain hnone | ⟨last, hlast⟩ := classAtom_character (seesRange_next hrange).2
  · obtain ⟨c, es, hes, hlength⟩ :=
      leadingMembers_broken h hinner hagree hrange (Prod.ext hnone rfl) hlt start
    exact ⟨_, es, hes, .inr ⟨⟨c, rfl⟩, hlength⟩⟩
  · obtain ⟨range, es, hes⟩ := leadingMembers_range h hrange (Prod.ext hlast rfl) _ (f start)
    exact ⟨_, es, hes, .inl ⟨range, rfl⟩⟩

end Members

def UnionOf.leading (u : ClassUnion) : List ClassElement :=
  match u.elements with
  | .intersection (v :: _) _ :: _ => v.elements
  | es => es

theorem UnionOf.leading_move (g : Nat → Nat) (u : ClassUnion) :
    (moveUnion g u).leading = u.leading.map (·.move g) := by
  obtain ⟨elements, flags, span⟩ := u
  match elements with
  | .intersection (v :: vs) _ :: _ => simp [leading, moveUnion]
  | [] | .intersection [] _ :: _ | .character _ :: _ | .range _ :: _ | .escapedClass _ :: _
  | .posix _ :: _ | .nested _ :: _ => rfl

theorem ClassDraft.leading_union {d : ClassDraft} {e : ClassElement} {es : List ClassElement}
    (h : d.leading = e :: es) (he : e.isSimple) (flags : Flags) (start stop : Nat) :
    (d.union flags start stop).leading = d.leading := by
  obtain ⟨operands, first, elements⟩ := d
  cases operands with
  | nil =>
    subst h
    cases e <;> first | rfl | cases he
  | cons u us => rfl

theorem Reader.OpensBracket.leading_bracketsWith {negated : Bool}
    (h : r.OpensBracket f s s' negated) (inner : Reading CharacterClass) :
    (bracketsWith inner r).1.union.leading =
      .character (r.skip (negated.toNat + 1)).bracket ::
        leadingMembers inner ((r.skip (negated.toNat + 2)).rest.length + 1)
          ⟨[], (r.skip (negated.toNat + 1)).offset, []⟩ (r.skip (negated.toNat + 2)) := by
  have hmembers := leadingMembers_append inner ((r.skip (negated.toNat + 2)).rest.length + 1)
    (r.skip (negated.toNat + 1)).offset [.character (r.skip (negated.toNat + 1)).bracket]
    (r.skip (negated.toNat + 2))
  rw [h.bracketsWith_eq]
  exact (ClassDraft.leading_union hmembers rfl _ _ _).trans hmembers

section Brackets

variable {n : Nat} {negated : Bool} {inner : Reading CharacterClass}
  (h : r.OpensBracket f s s' negated) (hinner : ∀ r, Carries f (moveClass f) r inner inner)
  (hagree : BracketsAgree n inner inner) (hlt : (r.skip (negated.toNat + 2)).rest.length < n)
include h hinner hagree hlt

theorem bracketsWith_meets (hrange : ¬ (r.skip (negated.toNat + 2)).seesRange) :
    Meets f (moveClass f) r (r.escapeAt f s s' (negated.toNat + 1)) (bracketsWith inner)
      (bracketsWith inner) := by
  rw [← skip_skip r (negated.toNat + 1) 1] at hrange hlt
  have hread := classMembers_meets h.bracket hinner hagree hrange hlt
    (r.skip (negated.toNat + 1)).offset
  rw [skip_skip] at hread
  rw [Meets, h.bracketsWith_escaped, h.bracketsWith_eq, hread, classOf_move]
  rfl

theorem bracketsWith_differ (hrange : (r.skip (negated.toNat + 2)).seesRange) (g g' : Nat → Nat) :
    moveClass g (bracketsWith inner (r.escapeAt f s s' (negated.toNat + 1))).1 ≠
      moveClass g' (bracketsWith inner r).1 := by
  have hskip : (r.skip (negated.toNat + 1)).skip 1 = r.skip (negated.toNat + 2) := skip_skip ..
  rw [← hskip] at hrange hlt
  obtain ⟨e, es, hescaped, hfirst⟩ := leadingMembers_differ h.bracket hinner hagree hrange hlt
    (r.skip (negated.toNat + 1)).offset
  rw [hskip] at hescaped hfirst
  have hsimple : e.isSimple := by
    obtain ⟨range, rfl⟩ | ⟨⟨c, rfl⟩, -⟩ := hfirst <;> rfl
  intro heq
  have hleading := congrArg (fun c : CharacterClass => c.union.leading) heq
  simp only [moveClass, UnionOf.leading_move] at hleading
  rw [h.leading_bracketsWith, h.bracketsWith_escaped, classOf,
    ClassDraft.leading_union hescaped hsimple, show ClassDraft.leading _ = _ from hescaped]
    at hleading
  obtain ⟨range, rfl⟩ | ⟨-, hlength⟩ := hfirst
  · simp at hleading
  · have hcount := congrArg List.length hleading
    simp only [List.length_map, List.length_cons] at hcount
    omega

end Brackets

end PhpSyntax.Pattern
