import PhpSyntax.Proofs.Pattern.Normal.Parts

namespace PhpSyntax.Pattern

open Reading Reader

variable {clean : Prop} {r : Reader}

theorem bounds_ordered : Forms clean bounds fun limits =>
    ∀ p ∈ limits, clean → ∀ max ∈ p.2, p.1 ≤ max := by
  refine .imp (.of_does (Q := fun limits => ∀ p ∈ limits, ∀ max ∈ p.2, p.1 ≤ max) fun r => ?_)
    fun limits h p hp hc => h hc p hp
  refine .get ?_
  split
  · exact .pure fun _ => by simp
  · rename_i min max n _
    refine .skip ?_
    split
    · exact .reportFrom (.pure _)
    · rename_i hmax
      refine .pure fun _ p hp m hm => ?_
      cases hp
      cases hm
      simpa using hmax

theorem repetitionBounds_ordered : Forms clean repetitionBounds fun limits =>
    ∀ p ∈ limits, clean → ∀ max ∈ p.2, p.1 ≤ max := by
  refine .get fun r => ?_
  split
  · exact .moves (.skip 1) fun _ => .pure (by simp)
  · exact .moves (.skip 1) fun _ => .pure (by simp)
  · exact .moves (.skip 1) fun _ => .pure (by simp)
  · exact bounds_ordered

theorem quantifier_ordered : Forms clean quantifier? fun q => ∀ q' ∈ q, clean → q'.Ordered := by
  refine .bind repetitionBounds_ordered fun limits => ?_
  split
  · refine .moves greediness_moves fun g => .pure fun h q hq => ?_
    cases hq
    exact h _ rfl
  · exact .pure fun _ => by simp

/-- An atom with its quantifier, if it has one, is an item. -/
theorem quantified_normal (part : Regex) : Forms clean (quantified part) fun t =>
    part.isAtom ∧ part.IsNormal clean → t.isItem ∧ t.IsNormal clean := by
  refine .moves .skipExtended fun _ => .bind quantifier_ordered fun q => ?_
  split
  · exact .moves (.spanFrom _) fun _ => .pure fun hq h =>
      ⟨rfl, .repetition (hq _ rfl) h.1 h.2⟩
  · exact .pure fun _ h => ⟨Regex.isItem_of_isAtom h.1, h.2⟩

structure ClassDraft.IsNormal (clean : Prop) (d : ClassDraft) : Prop where
  elements : ∀ e ∈ d.elements, e.IsNormal clean
  operands : ∀ u ∈ d.operands, u.IsNormal clean

namespace ClassDraft.IsNormal

variable {d : ClassDraft}

theorem add (hd : d.IsNormal clean) {es : List ClassElement} (hes : ∀ e ∈ es, e.IsNormal clean) :
    (d.add es).IsNormal clean :=
  ⟨List.forall_mem_append.mpr ⟨hd.elements, hes⟩, hd.operands⟩

theorem next (hd : d.IsNormal clean) (flags : Flags) (s : Span) (start : Nat) :
    ClassDraft.IsNormal clean ⟨d.operands ++ [⟨d.elements, flags, s⟩], start, []⟩ := by
  refine ⟨nofun, List.forall_mem_append.mpr ⟨hd.operands, ?_⟩⟩
  simpa using UnionOf.IsNormal.of_elements hd.elements

/-- An intersection has the operand that ends last besides those before it. -/
theorem union (hd : d.IsNormal clean) (flags : Flags) (start stop : Nat) :
    (d.union flags start stop).IsNormal clean := by
  unfold ClassDraft.union
  dsimp only
  split
  · exact .of_elements hd.elements
  · rename_i hne
    refine .of_intersection ?_ (hd.next flags ⟨d.start, stop⟩ start).operands
    have := List.length_pos_iff.mpr (by simpa using hne : d.operands ≠ [])
    simp only [List.length_append, List.length_singleton]
    omega

end ClassDraft.IsNormal

section Class

variable {inner : Reading CharacterClass} (hinner : Forms clean inner fun c => c.union.IsNormal clean)
include hinner

theorem innerClass_normal : Forms clean (innerClass inner) fun e => e.IsNormal clean := by
  refine .get fun r => ?_
  split
  · exact .moves (.skip _) fun _ => .moves (.spanFrom _) fun _ => .pure (.of_isSimple rfl)
  · exact .bind hinner fun c => .pure .nested

theorem classMembers_normal (rounds : Nat) (draft : ClassDraft) :
    Forms clean (classMembers inner rounds draft) fun result =>
      draft.IsNormal clean → result.1.IsNormal clean := by
  induction rounds generalizing draft with
  | zero => exact .get fun _ => .pure id
  | succ rounds ih =>
    refine .moves skipClassBlanks_moves fun _ => .get fun r => ?_
    have hmore : ∀ es, Forms clean (classMembers inner rounds (draft.add es)) fun result =>
        (∀ e ∈ es, e.IsNormal clean) → draft.IsNormal clean → result.1.IsNormal clean :=
      fun es => (ih _).imp fun _ h hes hd => h (hd.add hes)
    dsimp only
    split
    · exact .moves (.expected _) fun _ => .pure id
    · exact .moves (.skip 1) fun _ => .pure id
    · exact .moves (.skip 2) fun _ => .get fun r' =>
        (ih _).imp fun _ h hd => h (hd.next _ _ _)
    · exact .bind (innerClass_normal hinner) fun e => (hmore [e]).imp fun _ h he =>
        h (by simpa using he)
    · refine .moves quotation_moves fun cs => (hmore _).imp fun _ h => h ?_
      exact List.forall_mem_map.mpr fun c _ => .of_isSimple rfl
    · exact .moves (.skip 2) fun _ => ih draft
    · refine .bind classMember_simple fun e => (hmore _).imp fun _ h he => h ?_
      simpa using fun a ha => .of_isSimple (he a ha)

theorem bracketsWith_normal : Forms clean (bracketsWith inner) fun c => c.union.IsNormal clean := by
  refine .get fun r => .moves (.skip 1) fun _ => .moves (.eat _) fun negated => .get fun r₁ => ?_
  refine .bind leadingBracket_simple fun first => .get fun r₂ => ?_
  refine .bind (classMembers_normal hinner _ _) fun result => .get fun r₃ => .pure ?_
  intro hdraft hfirst
  exact (hdraft ⟨fun e he => .of_isSimple (hfirst e he), nofun⟩).union _ _ _

end Class

theorem withFlags_forms {α : Type} {x : Reading α} {Q : α → Prop} (change : Flags → Flags)
    (h : Forms clean x Q) : Forms clean (withFlags change x) Q := by
  intro r
  have hset : Advances r { r with flags := change r.flags } :=
    .of_same rfl rfl rfl (List.prefix_refl _)
  have hx := h { r with flags := change r.flags }
  exact ⟨hset.trans (hx.1.trans (.of_same rfl rfl rfl (List.prefix_refl _))), hx.2⟩

theorem branches_normal {body : Regex} (h : body.IsNormal clean) :
    ∀ t ∈ (branches body).1 :: (branches body).2.1.toList, t.isAlternative ∧ t.IsNormal clean := by
  unfold branches
  split
  · have h := (Regex.IsNormal.of_disjunction h).2
    simpa using ⟨h _ (.head _), h _ (.tail _ (.head _))⟩
  · rename_i hone
    refine List.forall_mem_singleton.mpr ⟨?_, h⟩
    cases body with
    | disjunction alternatives s =>
      have hlength := (Regex.IsNormal.of_disjunction h).1
      match alternatives, hlength with
      | yes :: no :: more, _ => exact (hone _ _ _ _ rfl).elim
    | _ => rfl

structure NestedReaders.Normal (clean : Prop) (n : NestedReaders) : Prop where
  disjunction : Forms clean n.disjunction fun t => t.IsNormal clean
  group : Forms clean n.group fun a => ∀ t ∈ a, t.isAtom ∧ t.IsNormal clean
  brackets : Forms clean n.brackets fun c => c.union.IsNormal clean

section Group

variable {n : NestedReaders} (hn : n.Normal clean) (start : Nat)
include hn

theorem someGroupBody_normal (kind : GroupKind) (change : Flags → Flags) :
    Forms clean (do return some (← groupBody n start kind change))
      fun a => ∀ t ∈ a, t.isAtom ∧ t.IsNormal clean := by
  have hbody : Forms clean (groupBody n start kind change) fun t => t.isAtom ∧ t.IsNormal clean := by
    refine .bind (withFlags_forms change hn.disjunction) fun element => ?_
    refine .moves (.expect _) fun _ => .moves (.spanFrom start) fun _ => .pure fun h => ?_
    exact ⟨rfl, .group (by simpa using h)⟩
  exact .bind hbody fun t => .pure fun h => by simpa using h

theorem namedGroup_normal (close : Char) :
    Forms clean (namedGroup n start close) fun a => ∀ t ∈ a, t.isAtom ∧ t.IsNormal clean := by
  refine .moves (groupName_moves close) fun name => ?_
  split
  · exact .moves nextIndex_moves fun index => someGroupBody_normal hn start _ _
  · exact .pure nofun

theorem announcedGroup_normal :
    Forms clean (announcedGroup n start) fun a => ∀ t ∈ a, t.isAtom ∧ t.IsNormal clean := by
  refine .moves (.skip 1) fun _ => .moves .next? fun c => ?_
  split
  · exact namedGroup_normal hn start _
  · refine .moves (groupName_moves _) fun reference => ?_
    split
    · refine .moves (.spanFrom start) fun s => .pure fun t ht => ?_
      cases ht
      exact ⟨rfl, .of_isPlain rfl⟩
    · exact .pure nofun
  · refine .moves (groupName_moves _) fun reference => ?_
    split
    · refine .moves (.spanFrom start) fun s => .pure fun t ht => ?_
      cases ht
      exact ⟨rfl, .of_isPlain rfl⟩
    · exact .pure nofun
  · exact .moves (.reportFrom _ _) fun _ => .pure nofun

theorem flagGroup_normal :
    Forms clean (flagGroup n start) fun a => ∀ t ∈ a, t.isAtom ∧ t.IsNormal clean := by
  refine .moves flagChange_moves fun change => .moves (.eat _) fun closed => ?_
  split
  · have hmove : Moves (modify fun r : Reader => { r with flags := change.apply r.flags }) :=
      fun _ => .of_same rfl rfl rfl (List.prefix_refl _)
    refine .moves hmove fun _ => .moves (.spanFrom start) fun s => .pure fun t ht => ?_
    cases ht
    exact ⟨rfl, .group nofun⟩
  · refine .get fun r => ?_
    split
    · exact .moves (.expected _) fun _ => .pure nofun
    · exact .moves (.skip 1) fun _ => someGroupBody_normal hn start _ _

theorem condition_normal : Forms clean (condition n) fun c =>
    ∀ part ∈ Part.ofCondition c, part.Everywhere (Part.Normal clean) := by
  refine .get fun r => ?_
  split
  · refine .bind hn.group fun a => ?_
    split
    · exact .pure fun h => by simpa [Part.ofCondition, Part.ofRegex] using (h _ rfl).2.ofRegex
    · exact .moves (.reportFrom _ _) fun _ => .pure fun _ => by simp [Part.ofCondition]
  · exact .moves (.skip 1) fun _ => .moves (.takeRun _) fun _ => .moves (.expect _) fun _ =>
      .pure (by simp [Part.ofCondition])

theorem conditional_normal :
    Forms clean (conditional n start) fun t => t.isAtom ∧ t.IsNormal clean := by
  refine .bind (condition_normal hn) fun test => ?_
  refine .bind (withFlags_forms id hn.disjunction) fun body => ?_
  have hb : body.IsNormal clean → _ := branches_normal
  generalize branches body = b at hb ⊢
  obtain ⟨yes, no, surplus⟩ := b
  have hend : Forms clean (do
      let _ ← expect ')'
      return Regex.conditional test yes no (← spanFrom start)) fun t => body.IsNormal clean →
        (∀ part ∈ Part.ofCondition test, part.Everywhere (Part.Normal clean)) →
          t.isAtom ∧ t.IsNormal clean :=
    .moves (.expect _) fun _ => .moves (.spanFrom start) fun _ => .pure fun hbody htest =>
      ⟨rfl, .conditional htest (hb hbody)⟩
  dsimp only
  split
  · exact .moves (.report _ _) fun _ => hend
  · exact hend

theorem specialGroup_normal :
    Forms clean (specialGroup n start) fun a => ∀ t ∈ a, t.isAtom ∧ t.IsNormal clean := by
  refine .get fun r => ?_
  split
  · exact .moves (.skip 1) fun _ => someGroupBody_normal hn start _ _
  · exact .moves (.skip 1) fun _ => someGroupBody_normal hn start _ _
  · exact .moves (.skip 1) fun _ => someGroupBody_normal hn start _ _
  · exact .moves (.skip 1) fun _ => someGroupBody_normal hn start _ _
  · exact .moves (.skip 2) fun _ => someGroupBody_normal hn start _ _
  · exact .moves (.skip 2) fun _ => someGroupBody_normal hn start _ _
  · exact .moves (.skip 1) fun _ => namedGroup_normal hn start _
  · exact .moves (.skip 1) fun _ => namedGroup_normal hn start _
  · exact announcedGroup_normal hn start
  · exact .moves comment_moves fun _ => .pure nofun
  · exact .bind (conditional_normal hn start) fun t => .pure fun h => by simpa using h
  · split
    · refine .bind (groupCall_plain start) fun t => .pure fun h => ?_
      simpa using ⟨Regex.isAtom_of_isPlain h, .of_isPlain h⟩
    · exact flagGroup_normal hn start
  · exact flagGroup_normal hn start

theorem groupWith_normal :
    Forms clean (groupWith n) fun a => ∀ t ∈ a, t.isAtom ∧ t.IsNormal clean := by
  refine .get fun r => .moves (.skip 1) fun _ => .moves (.eat _) fun special => ?_
  split
  · exact specialGroup_normal hn _
  · exact .moves nextIndex_moves fun index => someGroupBody_normal hn _ _ _

theorem atom_normal : Forms clean (atom n) fun a => ∀ t ∈ a, t.isAtom ∧ t.IsNormal clean := by
  refine .get fun r => ?_
  have hplain : ∀ t : Regex, t.isPlain → t.isAtom ∧ t.IsNormal clean := fun t h =>
    ⟨Regex.isAtom_of_isPlain h, .of_isPlain h⟩
  dsimp only
  split
  · exact .pure nofun
  split
  · exact .moves (.skip 1) fun _ => .moves (.report _ _) fun _ => .pure nofun
  split
  · exact .moves bounds_moves fun _ => .moves (.reportFrom _ _) fun _ => .pure nofun
  split
  · exact groupWith_normal hn
  split
  · refine .bind (bracketsWith_normal hn.brackets) fun c => .pure fun h => ?_
    simpa using ⟨rfl, .characterClass h⟩
  split
  · exact .moves (.skip 1) fun _ => .moves (.spanFrom _) fun _ => .pure (by simpa using hplain _ rfl)
  split
  · exact .moves (.skip 1) fun _ => .moves (.spanFrom _) fun _ => .pure (by simpa using hplain _ rfl)
  split
  · exact .moves (.skip 1) fun _ => .moves (.spanFrom _) fun _ => .pure (by simpa using hplain _ rfl)
  split
  · exact escape_plain.imp fun a h t ht => hplain t (h t ht)
  · exact .moves (.plainCharacter _) fun _ => .pure (by simpa using hplain _ rfl)

end Group

theorem quotedItems_normal :
    Forms clean quotedItems fun items => ∀ t ∈ items, t.isItem ∧ t.IsNormal clean := by
  refine .moves quotation_moves fun cs => ?_
  split
  · refine .bind (quantified_normal _) fun last => .pure fun hlast => ?_
    refine List.forall_mem_append.mpr ⟨?_, by simpa using hlast ⟨rfl, .of_isPlain rfl⟩⟩
    exact List.forall_mem_map.mpr fun c _ => ⟨rfl, .of_isPlain rfl⟩
  · exact .pure nofun

section Sequence

variable {n : NestedReaders} (hn : n.Normal clean)
include hn

theorem quantifiedAtom_normal :
    Forms clean (quantifiedAtom n) fun items => ∀ t ∈ items, t.isItem ∧ t.IsNormal clean := by
  refine .bind (atom_normal hn) fun a => ?_
  split
  · refine .bind (quantified_normal _) fun t => .pure fun ht hpart => ?_
    simpa using ht (hpart _ rfl)
  · exact .pure fun _ => nofun

theorem sequenceItems_normal (rounds : Nat) : Forms clean (sequenceItems n rounds) fun items =>
    ∀ t ∈ items, t.isItem ∧ t.IsNormal clean := by
  induction rounds with
  | zero => exact .pure nofun
  | succ rounds ih =>
    refine .moves .skipExtended fun _ => .get fun r => ?_
    split
    · exact .pure nofun
    · have hrest : ∀ items, Forms clean (do return items ++ (← sequenceItems n rounds)) fun all =>
          (∀ t ∈ items, t.isItem ∧ t.IsNormal clean) → ∀ t ∈ all, t.isItem ∧ t.IsNormal clean :=
        fun items => .bind ih fun more => .pure fun hmore hitems =>
          List.forall_mem_append.mpr ⟨hitems, hmore⟩
      split
      · exact .bind quotedItems_normal hrest
      · exact .bind (quantifiedAtom_normal hn) hrest

/-- One part stands for itself, so that a sequence never has one. -/
theorem sequence_normal :
    Forms clean (sequence n) fun t => t.isAlternative ∧ t.IsNormal clean := by
  refine .get fun r => .bind (sequenceItems_normal hn _) fun items => ?_
  split
  · exact .pure fun h => ⟨Regex.isAlternative_of_isItem (h _ (.head _)).1, (h _ (.head _)).2⟩
  · rename_i hone
    refine .moves (.spanFrom _) fun s => .pure fun h => ⟨rfl, .sequence ?_ h⟩
    intro hlength
    obtain ⟨item, rfl⟩ := List.length_eq_one_iff.mp hlength
    exact hone item rfl

theorem alternatives_normal (rounds : Nat) : Forms clean (alternatives n rounds) fun more =>
    ∀ t ∈ more, t.isAlternative ∧ t.IsNormal clean := by
  induction rounds with
  | zero => exact .pure nofun
  | succ rounds ih =>
    refine .moves (.eat _) fun found => ?_
    split
    · refine .bind (sequence_normal hn) fun next => .bind ih fun more => .pure ?_
      exact fun hmore hnext => List.forall_mem_cons.mpr ⟨hnext, hmore⟩
    · exact .pure nofun

theorem disjunctionWith_normal : Forms clean (disjunctionWith n) fun t => t.IsNormal clean := by
  refine .get fun r => .bind (sequence_normal hn) fun first => ?_
  refine .bind (alternatives_normal hn _) fun more => ?_
  split
  · exact .pure fun _ h => h.2
  · rename_i hmore
    refine .moves (.spanFrom _) fun s => .pure fun hmore' hfirst => .disjunction ?_ ?_
    · have := List.length_pos_iff.mpr hmore
      simp only [List.length_cons]
      omega
    · exact List.forall_mem_cons.mpr ⟨hfirst, hmore'⟩

end Sequence

theorem nestedReaders_normal (clean : Prop) (depth : Nat) : (nestedReaders depth).Normal clean := by
  induction depth with
  | zero =>
    refine ⟨.get fun _ => .get fun _ => .pure (.sequence (by simp) nofun), .pure nofun, ?_⟩
    exact .get fun _ => .get fun _ => .get fun _ => .pure (.of_elements nofun)
  | succ depth ih =>
    exact ⟨disjunctionWith_normal ih, groupWith_normal ih, bracketsWith_normal ih.brackets⟩

/-- Without a fault, the group that is read as a condition looks around. -/
theorem condition_lookaround (depth : Nat) (hpeek : r.peek? 1 = some '?') :
    Does r (condition (nestedReaders depth)) fun c r' => ∃ behind negated element s,
      (nestedReaders depth).group r =
          (some (.group (.lookaround behind negated) (some element) s), r') ∧
        c = .assertion behind negated element s := by
  have hgroup : Does r (nestedReaders depth).group fun a r' =>
      (nestedReaders depth).group r = (a, r') :=
    ⟨((nestedReaders_normal True depth).group r).1, fun _ => rfl⟩
  refine .get ?_
  rw [if_pos hpeek]
  refine .bind hgroup fun a r' _ => ?_
  split
  · exact .pure fun _ h => ⟨_, _, _, _, h, rfl⟩
  · exact .reportFrom (.pure _)

/-- The tree of a pattern is in normal form, whatever faults the pattern has. Without faults its
quantifiers are in order, and what is read as a condition looks around. -/
theorem parseChars_normal (chars : List SourceChar) (flags : Flags) :
    (∀ part ∈ (parseChars chars flags).tree.visit fun _ => true,
      part.Normal ((parseChars chars flags).errors = [])) ∧
    ∀ depth (r : Reader), r.peek? 1 = some '?' → (condition (nestedReaders depth) r).2.errors = [] →
      ∃ behind negated element s,
        ((nestedReaders depth).group r).1 =
            some (.group (.lookaround behind negated) (some element) s) ∧
          (condition (nestedReaders depth) r).1 = .assertion behind negated element s := by
  have h : Forms ((parseChars chars flags).errors = []) (pattern chars) fun t =>
      t.IsNormal ((parseChars chars flags).errors = []) :=
    .bind (nestedReaders_normal _ _).disjunction fun tree => .moves finish_moves fun _ =>
      .pure id
  refine ⟨(h (.ofChars chars flags)).2 id, fun depth r hpeek he => ?_⟩
  obtain ⟨behind, negated, element, s, hgroup, hcondition⟩ :=
    (condition_lookaround depth hpeek).2 he
  exact ⟨behind, negated, element, s, congrArg Prod.fst hgroup, hcondition⟩

end PhpSyntax.Pattern
