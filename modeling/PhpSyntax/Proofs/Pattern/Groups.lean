import PhpSyntax.Proofs.Pattern.Classes

namespace PhpSyntax.Pattern

open Reading Reader

abbrev Regex.Located (chars : List SourceChar) (tree : Regex) : Prop :=
  tree.Holds (UnionOf.Located chars)

variable {chars : List SourceChar} {r r' : Reader} {depth : Nat}

/-- A regular expression with nothing inside has no classes. -/
theorem Regex.Located.of_leaf {tree : Regex} (h : (Part.ofRegex tree).children = [])
    (hu : ∀ u, Part.ofRegex tree ≠ .union u) : tree.Located chars :=
  Regex.holds_of_children_eq_nil h hu

theorem Regex.Located.of_plain {tree : Regex} (h : tree.isPlain) : tree.Located chars := by
  unfold Regex.isPlain at h
  split at h
  · exact .of_leaf rfl nofun
  · exact .of_leaf rfl nofun
  · exact .of_leaf rfl nofun
  · exact .of_leaf rfl nofun
  · exact .of_leaf rfl nofun
  · exact .of_leaf rfl nofun
  · exact absurd h Bool.false_ne_true

theorem quantified_does (chars : List SourceChar) (part : Regex) :
    Does r (quantified part) fun t _ => part.Located chars → t.Located chars := by
  refine .moves .skipExtended fun _ _ _ => .moves quantifier_moves fun _ _ _ => ?_
  split
  · exact .spanFrom (.pure fun _ => Regex.holds_repetition.mpr)
  · exact .pure fun _ => id

/-- Changed flags do not matter for what a reader reads. -/
theorem Reader.Stands.withFlags (hr : Stands chars r) (flags : Flags) :
    Stands chars { r with flags } :=
  ⟨hr.suffix, hr.tiled⟩

theorem withFlags_does {α : Type} {change : Flags → Flags} {x : Reading α} {P : α → Prop}
    (h : Does { r with flags := change r.flags } x fun a _ => P a) :
    Does r (withFlags change x) fun a _ => P a := by
  have hset : Advances r { r with flags := change r.flags } :=
    .of_same rfl rfl rfl (List.prefix_refl _)
  have hrestore : Advances (x { r with flags := change r.flags }).2 (withFlags change x r).2 :=
    .of_same rfl rfl rfl (List.prefix_refl _)
  exact ⟨hset.trans (h.1.trans hrestore), h.2⟩

theorem nextIndex_moves : Moves nextIndex := fun _ => .of_same rfl rfl rfl (List.prefix_refl _)

section Moves

variable {R : Reader → Reader → Prop} [ReadingOrder R]

theorem groupName_moves (close : Char) : MovesIn R (groupName close) := by
  refine .bind (.takeRun _) fun _ => .ite (.bind (.expected _) fun _ => .pure _) ?_
  exact .bind (.expect _) fun _ => .ite (.pure _) (.pure _)

theorem comment_moves : MovesIn R comment :=
  .bind .get fun _ => .bind (.skip _) fun _ => .bind (.expect _) fun _ => .pure _

theorem groupCall_moves (start : Nat) : MovesIn R (groupCall start) :=
  .bind .get fun _ => .bind (.skip _) fun _ => .bind (.expect _) fun _ =>
    .bind (.spanFrom start) fun _ => .pure _

theorem forIn_moves {α β : Type} {f : α → β → Reading (ForInStep β)} (hf : ∀ a b, MovesIn R (f a b))
    (as : List α) (b : β) : MovesIn R (forIn as b f) := by
  induction as generalizing b with
  | nil => exact .pure b
  | cons a as ih =>
    rw [List.forIn_cons]
    refine .bind (hf a b) fun step => ?_
    split
    · exact .pure _
    · exact ih _

theorem flagChange_moves : MovesIn R flagChange := by
  refine .bind .get fun r => .bind (.skip _) fun _ => ?_
  exact .bind (forIn_moves (fun _ _ => .bind (.report _ _) fun _ => .pure _) _ _) fun _ => .pure _

end Moves

theorem groupCall_plain {clean : Prop} (start : Nat) :
    Forms clean (groupCall start) fun t => t.isPlain :=
  .get fun _ => .moves (.skip _) fun _ => .moves (.expect _) fun _ =>
    .moves (.spanFrom start) fun _ => .pure rfl

theorem branches_located {tree : Regex} (h : tree.Located chars) :
    (branches tree).1.Located chars ∧ ∀ t ∈ (branches tree).2.1, t.Located chars := by
  unfold branches
  split
  · have h := Regex.holds_disjunction.mp h
    exact ⟨h _ (by simp), by simpa using h _ (.tail _ (.head _))⟩
  · exact ⟨h, nofun⟩

structure NestedFit (chars : List SourceChar) (depth : Nat) : Prop where
  disjunction : ∀ r, Stands chars r → r.rest.length < depth →
    Does r (nestedReaders depth).disjunction fun t _ => t.Located chars
  group : ∀ r, Stands chars r → r.rest ≠ [] → r.rest.length < depth →
    Does r (nestedReaders depth).group fun a _ => ∀ t ∈ a, t.Located chars

section Group

variable (hn : NestedFit chars depth) (start : Nat)

include hn

theorem groupBody_does (kind : GroupKind) (change : Flags → Flags) (hr : Stands chars r)
    (hlt : r.rest.length < depth) :
    Does r (groupBody (nestedReaders depth) start kind change) fun t _ => t.Located chars := by
  refine .bind (withFlags_does (hn.disjunction _ (hr.withFlags _) hlt)) fun element _ _ => ?_
  refine .moves (.expect _) fun _ _ _ => .spanFrom (.pure fun _ h => ?_)
  exact Regex.holds_group.mpr (by simpa using h)

theorem someGroupBody_does (kind : GroupKind) (change : Flags → Flags) (hr : Stands chars r)
    (hlt : r.rest.length < depth) :
    Does r (do return some (← groupBody (nestedReaders depth) start kind change))
      fun a _ => ∀ t ∈ a, t.Located chars :=
  .bind (groupBody_does hn start kind change hr hlt) fun _ _ _ => .pure fun _ h => by simpa using h

theorem namedGroup_does (close : Char) (hr : Stands chars r) (hlt : r.rest.length < depth) :
    Does r (namedGroup (nestedReaders depth) start close) fun a _ => ∀ t ∈ a, t.Located chars := by
  refine .moves (groupName_moves close) fun name r₁ h₁ => ?_
  split
  · refine .moves nextIndex_moves fun index r₂ h₂ => ?_
    have h := h₁.trans h₂
    exact someGroupBody_does hn start _ _ (hr.advance h) (Nat.lt_of_le_of_lt h.length_le hlt)
  · exact .pure fun _ => nofun

theorem announcedGroup_does (hr : Stands chars r) (hlt : r.rest.length < depth) :
    Does r (announcedGroup (nestedReaders depth) start) fun a _ => ∀ t ∈ a, t.Located chars := by
  refine .skip (.moves .next? fun c r₁ h₁ => ?_)
  have h := (Advances.skip r 1).trans h₁
  split
  · exact namedGroup_does hn start _ (hr.advance h) (Nat.lt_of_le_of_lt h.length_le hlt)
  · refine .moves (groupName_moves _) fun reference _ _ => ?_
    split
    · exact .spanFrom (.pure fun _ => by simpa using .of_leaf rfl nofun)
    · exact .pure fun _ => nofun
  · refine .moves (groupName_moves _) fun reference _ _ => ?_
    split
    · exact .spanFrom (.pure fun _ => by simpa using .of_leaf rfl nofun)
    · exact .pure fun _ => nofun
  · exact .reportFrom (.pure _)

theorem flagGroup_does (hr : Stands chars r) (hlt : r.rest.length < depth) :
    Does r (flagGroup (nestedReaders depth) start) fun a _ => ∀ t ∈ a, t.Located chars := by
  refine .moves flagChange_moves fun change r₁ h₁ => .moves (.eat _) fun closed r₂ h₂ => ?_
  have h := h₁.trans h₂
  split
  · have hmove : Moves (modify fun r : Reader => { r with flags := change.apply r.flags }) :=
      fun _ => .of_same rfl rfl rfl (List.prefix_refl _)
    exact .moves hmove fun _ _ _ => .spanFrom (.pure fun _ => by simpa using .of_leaf rfl nofun)
  · refine .get ?_
    split
    · exact .expected (.pure _)
    · have h := h.trans (.skip r₂ 1)
      exact .skip (someGroupBody_does hn start _ _ (hr.advance h)
        (Nat.lt_of_le_of_lt h.length_le hlt))

theorem condition_does (hr : Stands chars r) (hlt : r.rest.length < depth) :
    Does r (condition (nestedReaders depth)) fun c _ =>
      ∀ part ∈ Part.ofCondition c, part.Holds (UnionOf.Located chars) := by
  refine .get ?_
  split
  · rename_i hpeek
    refine .bind (hn.group r hr (rest_ne_nil_of_peek hpeek) hlt) fun a r₁ h₁ => ?_
    split
    · refine .pure fun _ h => ?_
      have h := (Regex.holds_iff _).mp (h _ rfl)
      simpa [Part.ofCondition, Part.ofRegex] using h
    · exact .reportFrom (.pure _)
  · exact .skip (.moves (.takeRun _) fun _ _ _ => .moves (.expect _) fun _ _ _ =>
      .pure fun _ => by simp [Part.ofCondition])

theorem conditional_does (hr : Stands chars r) (hlt : r.rest.length < depth) :
    Does r (conditional (nestedReaders depth) start) fun t _ => t.Located chars := by
  refine .bind (condition_does hn hr hlt) fun test r₁ h₁ => ?_
  have hlt₁ := Nat.lt_of_le_of_lt h₁.length_le hlt
  refine .bind (withFlags_does (hn.disjunction _ ((hr.advance h₁).withFlags _) hlt₁))
    fun body r₂ h₂ => ?_
  have hb : body.Located chars → _ := branches_located
  generalize branches body = b at hb ⊢
  obtain ⟨yes, no, surplus⟩ := b
  have hend : ∀ r', Does r' (do
      let _ ← expect ')'
      return Regex.conditional test yes no (← spanFrom start)) fun t _ => body.Located chars →
        (∀ part ∈ Part.ofCondition test, part.Holds (UnionOf.Located chars)) → t.Located chars :=
    fun r' => .moves (.expect _) fun _ _ _ => .spanFrom (.pure fun _ hbody htest =>
      Regex.holds_conditional.mpr ⟨htest, hb hbody⟩)
  dsimp only
  split
  · exact .moves (.report _ _) fun _ r' _ => hend r'
  · exact hend r₂

theorem specialGroup_does (hr : Stands chars r) (hlt : r.rest.length < depth) :
    Does r (specialGroup (nestedReaders depth) start) fun a _ => ∀ t ∈ a, t.Located chars := by
  refine .get ?_
  have hskip : ∀ k, Stands chars (r.skip k) ∧ (r.skip k).rest.length < depth := fun k =>
    ⟨hr.advance (.skip r k), Nat.lt_of_le_of_lt (Advances.skip r k).length_le hlt⟩
  split
  · exact .skip (someGroupBody_does hn start _ _ (hskip 1).1 (hskip 1).2)
  · exact .skip (someGroupBody_does hn start _ _ (hskip 1).1 (hskip 1).2)
  · exact .skip (someGroupBody_does hn start _ _ (hskip 1).1 (hskip 1).2)
  · exact .skip (someGroupBody_does hn start _ _ (hskip 1).1 (hskip 1).2)
  · exact .skip (someGroupBody_does hn start _ _ (hskip 2).1 (hskip 2).2)
  · exact .skip (someGroupBody_does hn start _ _ (hskip 2).1 (hskip 2).2)
  · exact .skip (namedGroup_does hn start _ (hskip 1).1 (hskip 1).2)
  · exact .skip (namedGroup_does hn start _ (hskip 1).1 (hskip 1).2)
  · exact announcedGroup_does hn start hr hlt
  · exact .moves comment_moves fun _ _ _ => .pure fun _ => nofun
  · exact .bind (conditional_does hn start hr hlt) fun _ _ _ => .pure fun _ h => by simpa using h
  · split
    · exact .bind (groupCall_plain start).does fun _ _ _ => .pure fun _ h => by simpa using .of_plain h
    · exact flagGroup_does hn start hr hlt
  · exact flagGroup_does hn start hr hlt

theorem groupWith_does (hr : Stands chars r) (hne : r.rest ≠ []) (hlt : r.rest.length < depth + 1) :
    Does r (groupWith (nestedReaders depth)) fun a _ => ∀ t ∈ a, t.Located chars := by
  refine .get (.skip (.moves (.eat _) fun special r₁ h₁ => ?_))
  have hr₁ := (hr.advance (.skip r 1)).advance h₁
  have hlt₁ := (hr.spanFrom_of_skip hne h₁).2
  split
  · exact specialGroup_does hn _ hr₁ (by omega)
  · refine .moves nextIndex_moves fun index r₂ h₂ => ?_
    have hle := h₂.length_le
    exact someGroupBody_does hn _ _ _ (hr₁.advance h₂) (by omega)

end Group

theorem quotedItems_does :
    Does r quotedItems fun items _ => ∀ t ∈ items, t.Located chars := by
  refine .moves quotation_moves fun cs _ _ => ?_
  have hleaf : ∀ c, (Regex.character c).Located chars := fun c => .of_leaf rfl nofun
  split
  · refine .bind (quantified_does chars _) fun last _ _ => .pure fun _ hlast => ?_
    refine List.forall_mem_append.mpr ⟨?_, by simpa using hlast (hleaf _)⟩
    intro t ht
    obtain ⟨c, -, rfl⟩ := List.mem_map.mp ht
    exact hleaf c
  · exact .pure fun _ => nofun

section Sequence

variable (hn : NestedFit chars depth)

include hn

theorem atom_does (hr : Stands chars r) (hlt : r.rest.length < depth + 1) :
    Does r (atom (nestedReaders depth)) fun a _ => ∀ t ∈ a, t.Located chars := by
  refine .get ?_
  dsimp only
  split
  · exact .pure fun _ => nofun
  · rename_i c hhead
    have hne : r.rest ≠ [] := rest_ne_nil_of_head hhead
    split
    · exact .skip (.moves (.report _ _) fun _ _ _ => .pure fun _ => nofun)
    split
    · exact .moves bounds_moves fun _ _ _ => .reportFrom (.pure _)
    split
    · exact groupWith_does hn hr hne hlt
    split
    · refine .bind (bracketsWith_does (bracketsFit chars depth) hr hne hlt) fun c _ _ => .pure ?_
      rintro - ⟨-, -, h⟩
      simpa using Regex.holds_characterClass.mpr h
    split
    · exact .skip (.spanFrom (.pure fun _ => by simpa using .of_leaf rfl nofun))
    split
    · exact .skip (.spanFrom (.pure fun _ => by simpa using .of_leaf rfl nofun))
    split
    · exact .skip (.spanFrom (.pure fun _ => by simpa using .of_leaf rfl nofun))
    split
    · exact escape_plain.does.imp fun _ _ _ h t ht => .of_plain (h t ht)
    · exact .moves (.plainCharacter _) fun _ _ _ => .pure fun _ => by simpa using .of_leaf rfl nofun

theorem quantifiedAtom_does (hr : Stands chars r) (hlt : r.rest.length < depth + 1) :
    Does r (quantifiedAtom (nestedReaders depth)) fun items _ => ∀ t ∈ items, t.Located chars := by
  refine .bind (atom_does hn hr hlt) fun a _ _ => ?_
  split
  · refine .bind (quantified_does chars _) fun t _ _ => .pure fun _ ht hpart => ?_
    simpa using ht (hpart _ rfl)
  · exact .pure fun _ _ => nofun

theorem sequenceItems_does (rounds : Nat) (hr : Stands chars r) (hlt : r.rest.length < depth + 1) :
    Does r (sequenceItems (nestedReaders depth) rounds) fun items _ =>
      ∀ t ∈ items, t.Located chars := by
  induction rounds generalizing r with
  | zero => exact .pure fun _ => nofun
  | succ rounds ih =>
    refine .moves .skipExtended fun _ r₁ h₁ => .get ?_
    have hr₁ := hr.advance h₁
    have hlt₁ := Nat.lt_of_le_of_lt h₁.length_le hlt
    split
    · exact .pure fun _ => nofun
    · have hrest : ∀ (items : List Regex) (r₂ : Reader), Advances r₁ r₂ →
          Does r₂ (do return items ++ (← sequenceItems (nestedReaders depth) rounds))
            fun all _ => (∀ t ∈ items, t.Located chars) → ∀ t ∈ all, t.Located chars := by
        intro items r₂ h₂
        refine .bind (ih (hr₁.advance h₂) (Nat.lt_of_le_of_lt h₂.length_le hlt₁)) ?_
        exact fun more _ _ => .pure fun _ hmore hitems =>
          List.forall_mem_append.mpr ⟨hitems, hmore⟩
      split
      · exact .bind quotedItems_does hrest
      · exact .bind (quantifiedAtom_does hn hr₁ hlt₁) hrest

theorem sequence_does (hr : Stands chars r) (hlt : r.rest.length < depth + 1) :
    Does r (sequence (nestedReaders depth)) fun t _ => t.Located chars := by
  refine .get (.bind (sequenceItems_does hn _ hr hlt) fun items _ _ => ?_)
  split
  · exact .pure fun _ h => h _ (.head _)
  · exact .spanFrom (.pure fun _ h => Regex.holds_sequence.mpr h)

theorem alternatives_does (rounds : Nat) (hr : Stands chars r) (hlt : r.rest.length < depth + 1) :
    Does r (alternatives (nestedReaders depth) rounds) fun more _ =>
      ∀ t ∈ more, t.Located chars := by
  induction rounds generalizing r with
  | zero => exact .pure fun _ => nofun
  | succ rounds ih =>
    refine .moves (.eat _) fun found r₁ h₁ => ?_
    have hr₁ := hr.advance h₁
    have hlt₁ := Nat.lt_of_le_of_lt h₁.length_le hlt
    split
    · refine .bind (sequence_does hn hr₁ hlt₁) fun next r₂ h₂ => ?_
      refine .bind (ih (hr₁.advance h₂) (Nat.lt_of_le_of_lt h₂.length_le hlt₁)) fun more _ _ => ?_
      exact .pure fun _ hmore hnext => List.forall_mem_cons.mpr ⟨hnext, hmore⟩
    · exact .pure fun _ => nofun

theorem disjunctionWith_does (hr : Stands chars r) (hlt : r.rest.length < depth + 1) :
    Does r (disjunctionWith (nestedReaders depth)) fun t _ => t.Located chars := by
  refine .get (.bind (sequence_does hn hr hlt) fun first r₁ h₁ => ?_)
  refine .bind (alternatives_does hn _ (hr.advance h₁) (Nat.lt_of_le_of_lt h₁.length_le hlt))
    fun more _ _ => ?_
  split
  · exact .pure fun _ _ h => h
  · exact .spanFrom (.pure fun _ hmore hfirst =>
      Regex.holds_disjunction.mpr (List.forall_mem_cons.mpr ⟨hfirst, hmore⟩))

end Sequence

theorem nestedFit (chars : List SourceChar) (depth : Nat) : NestedFit chars depth := by
  induction depth with
  | zero =>
    exact ⟨fun r _ hlt => (Nat.not_lt_zero _ hlt).elim,
      fun r _ _ hlt => (Nat.not_lt_zero _ hlt).elim⟩
  | succ depth ih =>
    exact ⟨fun r hr hlt => disjunctionWith_does ih hr hlt,
      fun r hr hne hlt => groupWith_does ih hr hne hlt⟩

theorem finish_moves {R : Reader → Reader → Prop} [ReadingOrder R] : MovesIn R finish :=
  .bind .get fun _ => .ite (.report _ _) (.pure _)

/-- The classes of a pattern without faults were read from its characters. -/
theorem parseChars_located {chars : List SourceChar} {stop : Nat} (ht : Tiled 0 chars stop)
    (flags : Flags) (he : (parseChars chars flags).errors = []) :
    (parseChars chars flags).tree.Located chars := by
  have hstands : Stands chars (.ofChars chars flags) := by
    refine ⟨List.suffix_refl _, ?_⟩
    change Tiled 0 chars (stopOf 0 chars)
    rwa [ht.stopOf_eq]
  have h : Does (.ofChars chars flags) (pattern chars) fun t _ => t.Located chars := by
    refine .bind ((nestedFit chars _).disjunction _ hstands (Nat.lt_succ_self _)) fun t _ _ => ?_
    exact .moves finish_moves fun _ _ _ => .pure fun _ h => h
  exact h.2 he

end PhpSyntax.Pattern
