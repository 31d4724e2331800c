import PhpSyntax.Pattern.Parse
import PhpSyntax.Proofs.Pattern.Spans.Classes

namespace PhpSyntax.Pattern

open Reading Reader PhpSyntax.Pattern.Part

variable {n : Nat} {r : Reader} {start : Nat}

/-- The reading yields parts between an offset and the character that it reads last. -/
abbrev Places {α : Type} (n : Nat) (r : Reader) (x : Reading α) (start : Nat)
    (parts : α → List Part) : Prop :=
  Yields n r x fun a r' => Between start (parts a) r'.lastStop

/-- The parts that a reading yields which need not find one. -/
abbrev found (a : Option Regex) : List Part :=
  a.toList.map regex

theorem Reading.Yields.none (hstart : start ≤ r.lastStop) :
    Places n r (do return none) start found :=
  Yields.pure fun _ => .nil hstart

/-- A part with nothing inside that was read since an offset. -/
theorem Reading.Yields.leaf {f : Span → Regex} (hstart : start ≤ r.lastStop)
    (hf : ∀ s, (ofRegex (f s)).children = []) (hspan : ∀ s, (f s).span = s) :
    Places n r (do return some (f (← Reading.spanFrom start))) start found :=
  Yields.spanFrom hstart (Yields.pure fun _ => Between.leaf (hf _) hstart (hspan _))

section Escapes

theorem closedReference_yields (close : Char) (hstart : start ≤ r.lastStop) :
    Places n r (closedReference start close) start found := by
  refine .skip fun h => .bind (.takeRun _) fun reference r₁ h₁ _ => ?_
  refine .bind (.expect _) fun closed r₂ h₂ _ => ?_
  have hstart := Nat.le_trans (Nat.le_trans hstart h.le) (Nat.le_trans h₁.le h₂.le)
  split
  · exact .leaf (f := .backReference _) hstart (fun _ => rfl) fun _ => rfl
  · exact .none hstart

theorem groupReference_yields (letter : Char) (hstart : start ≤ r.lastStop) :
    Places n r (groupReference start letter) start found := by
  refine .skip fun h => .get fun _ => ?_
  have hstart := Nat.le_trans hstart h.le
  split
  · exact closedReference_yields _ hstart
  · exact closedReference_yields _ hstart
  · exact closedReference_yields _ hstart
  · split
    · refine .skip fun h₁ => .bind (.takeRun _) fun written r₂ h₂ _ => ?_
      have hstart := Nat.le_trans hstart (Nat.le_trans h₁.le h₂.le)
      exact .leaf (f := .backReference _) hstart (fun _ => rfl) fun _ => rfl
    · exact .bind (.expected _) fun _ _ h₁ _ => .none (Nat.le_trans hstart h₁.le)
  · exact .bind (.expected _) fun _ _ h₁ _ => .none (Nat.le_trans hstart h₁.le)

theorem escape_yields : Places n r escape r.lastStop found := by
  refine .get fun hr => ?_
  rw [hr.offset_eq]
  refine .skip fun h => .get fun _ => ?_
  have hstart := h.le
  split
  · exact .bind (.expected _) fun _ _ h₁ _ => .none (Nat.le_trans hstart h₁.le)
  · split
    · refine .bind (escapedClass_yields _ hstart) fun e r₁ h₁ hspan => .pure fun _ => ?_
      exact .leaf rfl (Nat.le_trans hstart h₁.le) hspan
    split
    · refine .skip fun h₁ => ?_
      exact .leaf (f := .boundary _) (Nat.le_trans hstart h₁.le) (fun _ => rfl) fun _ => rfl
    split
    · refine .bind (.takeRun _) fun written r₁ h₁ _ => ?_
      exact .leaf (f := .backReference _) (Nat.le_trans hstart h₁.le) (fun _ => rfl) fun _ => rfl
    split
    · exact groupReference_yields _ hstart
    split
    · exact .skip fun h₁ => .none (Nat.le_trans hstart h₁.le)
    · refine .bind (characterEscape_yields hstart) fun c r₁ h₁ hspan => .pure fun _ => ?_
      have hstart := Nat.le_trans hstart h₁.le
      cases c with
      | none => exact .nil hstart
      | some c => exact .leaf rfl hstart (hspan c rfl)

theorem bounds_yields : Yields n r bounds fun _ _ => True := by
  refine .get fun hr => ?_
  rw [hr.offset_eq]
  split
  · exact .pure fun _ => trivial
  · refine .skip fun h => ?_
    dsimp only
    split
    · exact .bind (.reportFrom _ h.le) fun _ _ _ _ => .pure fun _ => trivial
    · exact .pure fun _ => trivial

theorem quantifier_yields : Yields n r quantifier? fun _ _ => True := by
  refine .bind (P := fun _ _ => True) ?_ fun bounds r₁ _ _ => ?_
  · refine .get fun _ => ?_
    split
    · exact .skip fun _ => .pure fun _ => trivial
    · exact .skip fun _ => .pure fun _ => trivial
    · exact .skip fun _ => .pure fun _ => trivial
    · exact bounds_yields
  · split
    · refine .bind (P := fun _ _ => True) ?_ fun _ _ _ _ => .pure fun _ => trivial
      refine .bind (.eat _) fun lazy r₂ _ _ => ?_
      split
      · exact .pure fun _ => trivial
      · refine .bind (.eat _) fun possessive r₃ _ _ => ?_
        split
        · exact .pure fun _ => trivial
        · exact .pure fun _ => trivial
    · exact .pure fun _ => trivial

/-- A repetition has the stretch of the part that is repeated and of the quantifier. -/
theorem quantified_yields {part : Regex} (hpart : Between start [regex part] r.lastStop) :
    Places n r (quantified part) start fun t => [regex t] := by
  refine .bind .skipExtended fun _ r₁ h₁ _ => .bind quantifier_yields fun quantifier r₂ h₂ _ => ?_
  have hle := Nat.le_trans h₁.le h₂.le
  obtain ⟨hplaced, hstart, hstop⟩ := hpart.of_single
  have hstop := Nat.le_trans hstop hle
  split
  · refine .spanFrom (Nat.le_trans hplaced.le hstop) (.pure fun _ => ?_)
    have hinner : Between part.span.start [regex part] r₂.lastStop :=
      .single hplaced (Nat.le_refl _) hstop
    exact .widen (.node hinner rfl) hstart (Nat.le_refl _)
  · exact .pure fun _ => hpart.widen (Nat.le_refl _) hle

end Escapes

section Flags

/-- Flags and the number of groups do not matter for where a reader stands. -/
theorem Reader.Fits.with {flags : Flags} {groups : Nat} (hr : Fits n r) :
    Fits n { r with flags, groups } :=
  ⟨hr.length, hr.tiled, hr.errors⟩

theorem modify_yields {f : Reader → Reader} (flags : Reader → Flags) (groups : Reader → Nat)
    (hf : ∀ r, f r = { r with flags := flags r, groups := groups r }) :
    Yields n r (modify f) fun _ r' => r'.lastStop = r.lastStop := by
  intro hr
  have hrun : (modify f : Reading PUnit) r = (⟨⟩, f r) := rfl
  rw [hrun, hf]
  exact ⟨⟨.of_same rfl rfl rfl (List.prefix_refl _), hr.with, Nat.le_refl _⟩, rfl⟩

theorem withFlags_yields {α : Type} {change : Flags → Flags} {x : Reading α}
    {parts : α → List Part} (hx : ∀ r : Reader, Places n r x r.lastStop parts) :
    Places n r (withFlags change x) r.lastStop parts := by
  refine .get fun _ => .bind (modify_yields (change ·.flags) (·.groups) fun _ => rfl) ?_
  intro _ r₁ h₁ hlast
  rw [← hlast]
  refine .bind (hx r₁) fun a r₂ h₂ ha => ?_
  refine .bind (modify_yields (fun _ => r.flags) (·.groups) fun _ => rfl) fun _ r₃ h₃ _ => ?_
  exact .pure fun _ => ha.widen (Nat.le_refl _) h₃.le

theorem nextIndex_yields : Yields n r nextIndex fun _ _ => True := by
  refine .bind (modify_yields (·.flags) (·.groups + 1) fun _ => rfl) fun _ r₁ h₁ _ => ?_
  exact .get fun _ => .pure fun _ => trivial

theorem groupName_yields (close : Char) : Yields n r (groupName close) fun _ _ => True := by
  refine .bind (.takeRun _) fun name r₁ _ _ => ?_
  split
  · exact .bind (.expected _) fun _ _ _ _ => .pure fun _ => trivial
  · refine .bind (.expect _) fun found r₂ _ _ => ?_
    split
    · exact .pure fun _ => trivial
    · exact .pure fun _ => trivial

theorem comment_yields : Yields n r comment fun _ _ => True :=
  .get fun _ => .skip fun _ => .bind (.expect _) fun _ _ _ _ => .pure fun _ => trivial

theorem groupCall_yields (hstart : start ≤ r.lastStop) :
    Places n r (groupCall start) start fun t => [regex t] := by
  refine .get fun _ => .skip fun h => .bind (.expect _) fun _ r₁ h₁ _ => ?_
  have hstart := Nat.le_trans hstart (Nat.le_trans h.le h₁.le)
  exact .spanFrom hstart (.pure fun _ => .leaf rfl hstart rfl)

/-- The letters that are no flags are among the next characters. -/
theorem flagLetters_unknown (disabling : Bool) (change : FlagChange) (cs : List SourceChar) :
    (flagLetters disabling change cs).2.2 ⊆ cs := by
  induction cs generalizing disabling change with
  | nil => exact List.Subset.refl _
  | cons c cs ih =>
    rw [flagLetters]
    split
    · exact List.subset_cons_of_subset c (ih _ _)
    split
    · split
      · exact List.subset_cons_of_subset c (ih _ _)
      · exact List.cons_subset_cons c (ih _ _)
    · exact List.nil_subset _

/-- Letters of the pattern that are no flags are reported where they are. -/
theorem reportUnknown_yields {cs : List SourceChar}
    (hcs : ∀ c ∈ cs, c.span.start ≤ c.span.stop ∧ c.span.stop ≤ r.stop) :
    Yields n r (forIn cs PUnit.unit fun c _ => do
      report (.unknownFlag c.char) c.span
      return .yield PUnit.unit) fun _ _ => True := by
  induction cs generalizing r with
  | nil => exact .pure fun _ => trivial
  | cons c cs ih =>
    obtain ⟨hc, hcs⟩ := List.forall_mem_cons.mp hcs
    rw [List.forIn_cons]
    refine .bind (P := fun _ _ => True) ?_ fun step r₁ h₁ _ => ?_
    · exact .bind (.report _ hc.1 hc.2) fun _ _ _ _ => .pure fun _ => trivial
    · cases step with
      | done => exact .pure fun _ => trivial
      | yield => exact ih (by rwa [h₁.advances.stop])

theorem flagChange_yields : Yields n r flagChange fun _ _ => True := by
  refine .get fun hr => .skip fun h => .bind (reportUnknown_yields fun c hc => ?_) ?_
  · have := hr.tiled.mem c (flagLetters_unknown _ _ _ hc)
    exact ⟨Nat.le_of_lt this.2.1, this.2.2⟩
  · exact fun _ _ _ _ => .pure fun _ => trivial

end Flags

/-- The branches of a choice follow each other, and so do surplus alternatives. -/
theorem branches_between {tree : Regex} {stop : Nat} (h : Between start [regex tree] stop) :
    Between start (regex (branches tree).1 :: found (branches tree).2.1) stop ∧
      ∀ s ∈ (branches tree).2.2, s.start ≤ s.stop ∧ s.stop ≤ stop := by
  unfold branches
  split
  · rename_i yes no more span
    obtain ⟨hplaced, hstart, hstop⟩ := (Between.regex_iff.mp h).of_single
    have hle : span.start ≤ span.stop := hplaced.le
    obtain ⟨hnests, hinside⟩ := (placed_iff _).mp hplaced
    have hall : Between start ([regex yes, regex no] ++ more.map regex) stop :=
      Between.widen ⟨hnests.row, hinside⟩ hstart hstop
    obtain ⟨b, htwo, hmore⟩ := Between.append_iff.mp hall
    refine ⟨htwo.widen (Nat.le_refl _) hmore.le, fun s hs => ?_⟩
    split at hs
    · cases hs
    · cases hs
      exact ⟨hle, hstop⟩
  · exact ⟨h, nofun⟩

structure NestedYield (n : Nat) (d : NestedReaders) : Prop where
  disjunction : ∀ r, Places n r d.disjunction r.lastStop fun t => [regex t]
  group : ∀ r, r.rest ≠ [] → Places n r d.group r.lastStop found
  brackets : BracketsYield n d.brackets

section Group

variable {d : NestedReaders} (hd : NestedYield n d)

include hd

theorem groupBody_yields (kind : GroupKind) (change : Flags → Flags) (hstart : start ≤ r.lastStop) :
    Places n r (groupBody d start kind change) start fun t => [regex t] := by
  refine .bind (withFlags_yields hd.disjunction) fun element r₁ h₁ helement => ?_
  refine .bind (.expect _) fun _ r₂ h₂ _ => ?_
  refine .spanFrom (Nat.le_trans hstart (Nat.le_trans h₁.le h₂.le)) (.pure fun _ => ?_)
  exact .node (helement.widen hstart h₂.le) rfl

theorem someGroupBody_yields (kind : GroupKind) (change : Flags → Flags)
    (hstart : start ≤ r.lastStop) :
    Places n r (do return some (← groupBody d start kind change)) start found :=
  .bind (groupBody_yields hd kind change hstart) fun _ _ _ h => .pure fun _ => h

theorem namedGroup_yields (close : Char) (hstart : start ≤ r.lastStop) :
    Places n r (namedGroup d start close) start found := by
  refine .bind (groupName_yields close) fun name r₁ h₁ _ => ?_
  have hstart := Nat.le_trans hstart h₁.le
  split
  · refine .bind nextIndex_yields fun index r₂ h₂ _ => ?_
    exact someGroupBody_yields hd _ _ (Nat.le_trans hstart h₂.le)
  · exact .none hstart

theorem announcedGroup_yields (hstart : start ≤ r.lastStop) :
    Places n r (announcedGroup d start) start found := by
  refine .skip fun h => .next? fun h₁ => ?_
  have hstart := Nat.le_trans hstart (Nat.le_trans h.le h₁.le)
  split
  · exact namedGroup_yields hd _ hstart
  · refine .bind (groupName_yields _) fun reference r₂ h₂ _ => ?_
    have hstart := Nat.le_trans hstart h₂.le
    split
    · exact .leaf (f := .backReference _) hstart (fun _ => rfl) fun _ => rfl
    · exact .none hstart
  · refine .bind (groupName_yields _) fun reference r₂ h₂ _ => ?_
    have hstart := Nat.le_trans hstart h₂.le
    split
    · exact .leaf (f := .group _ _) hstart (fun _ => rfl) fun _ => rfl
    · exact .none hstart
  · exact .bind (.reportFrom _ hstart) fun _ _ h₂ _ => .none (Nat.le_trans hstart h₂.le)

theorem flagGroup_yields (hstart : start ≤ r.lastStop) :
    Places n r (flagGroup d start) start found := by
  refine .bind flagChange_yields fun change r₁ h₁ _ => .bind (.eat _) fun closed r₂ h₂ _ => ?_
  have hstart := Nat.le_trans hstart (Nat.le_trans h₁.le h₂.le)
  split
  · refine .bind (modify_yields (change.apply ·.flags) (·.groups) fun _ => rfl) fun _ r₃ h₃ _ => ?_
    exact .leaf (f := .group _ _) (Nat.le_trans hstart h₃.le) (fun _ => rfl) fun _ => rfl
  · refine .get fun _ => ?_
    split
    · exact .bind (.expected _) fun _ _ h₃ _ => .none (Nat.le_trans hstart h₃.le)
    · exact .skip fun h₃ => someGroupBody_yields hd _ _ (Nat.le_trans hstart h₃.le)

theorem condition_yields : Places n r (condition d) r.lastStop ofCondition := by
  refine .get fun hr => ?_
  rw [hr.offset_eq]
  split
  · rename_i hpeek
    refine .bind (hd.group r (rest_ne_nil_of_peek hpeek)) fun a r₁ h₁ ha => ?_
    split
    · exact .pure fun _ => Between.regex_iff.mp ha
    · exact .bind (.reportFrom _ h₁.le) fun _ _ h₂ _ =>
        .pure fun _ => .nil (Nat.le_trans h₁.le h₂.le)
  · refine .skip fun h => .bind (.takeRun _) fun reference r₁ h₁ _ => ?_
    refine .bind (.expect _) fun _ r₂ h₂ _ => .pure fun _ => .nil ?_
    exact Nat.le_trans h.le (Nat.le_trans h₁.le h₂.le)

theorem conditional_yields (hstart : start ≤ r.lastStop) :
    Places n r (conditional d start) start fun t => [regex t] := by
  refine .bind (condition_yields hd) fun test r₁ h₁ htest => ?_
  refine .bind (withFlags_yields hd.disjunction) fun body r₂ h₂ hbody => ?_
  have hbranches := branches_between hbody
  generalize branches body = b at hbranches ⊢
  obtain ⟨yes, no, surplus⟩ := b
  have hend : ∀ r₃, Passes n r₂ r₃ → Places n r₃ (do
      let _ ← expect ')'
      return Regex.conditional test yes no (← Reading.spanFrom start)) start
        fun t => [regex t] := by
    intro r₃ h₃
    refine .bind (.expect _) fun _ r₄ h₄ _ => ?_
    have hle := Nat.le_trans h₃.le h₄.le
    refine .spanFrom (Nat.le_trans hstart (Nat.le_trans (Nat.le_trans h₁.le h₂.le) hle)) ?_
    refine .pure fun _ => .node ?_ rfl
    exact (htest.append hbranches.1).widen hstart hle
  refine .assume fun hr₂ => ?_
  dsimp only
  split
  · obtain ⟨hle, hstop⟩ := hbranches.2 _ rfl
    exact .bind (.report _ hle (Nat.le_trans hstop hr₂.lastStop_le)) fun _ r₃ h₃ _ => hend r₃ h₃
  · exact hend r₂ hr₂.passes

theorem specialGroup_yields (hstart : start ≤ r.lastStop) :
    Places n r (specialGroup d start) start found := by
  refine .get fun _ => ?_
  split
  · exact .skip fun h => someGroupBody_yields hd _ _ (Nat.le_trans hstart h.le)
  · exact .skip fun h => someGroupBody_yields hd _ _ (Nat.le_trans hstart h.le)
  · exact .skip fun h => someGroupBody_yields hd _ _ (Nat.le_trans hstart h.le)
  · exact .skip fun h => someGroupBody_yields hd _ _ (Nat.le_trans hstart h.le)
  · exact .skip fun h => someGroupBody_yields hd _ _ (Nat.le_trans hstart h.le)
  · exact .skip fun h => someGroupBody_yields hd _ _ (Nat.le_trans hstart h.le)
  · exact .skip fun h => namedGroup_yields hd _ (Nat.le_trans hstart h.le)
  · exact .skip fun h => namedGroup_yields hd _ (Nat.le_trans hstart h.le)
  · exact announcedGroup_yields hd hstart
  · exact .bind comment_yields fun _ _ h _ => .none (Nat.le_trans hstart h.le)
  · exact .bind (conditional_yields hd hstart) fun _ _ _ h => .pure fun _ => h
  · split
    · exact .bind (groupCall_yields hstart) fun _ _ _ h => .pure fun _ => h
    · exact flagGroup_yields hd hstart
  · exact flagGroup_yields hd hstart

theorem groupWith_yields (hne : r.rest ≠ []) :
    Places (n + 1) r (groupWith d) r.lastStop found := by
  refine .get fun hr => ?_
  rw [hr.offset_eq]
  refine .consume hne Nat.one_pos fun hlt => .bind (.eat _) fun special r₁ h₁ _ => ?_
  have hstart := Nat.le_trans (Nat.le_of_lt hlt) h₁.le
  split
  · exact specialGroup_yields hd hstart
  · refine .bind nextIndex_yields fun index r₂ h₂ _ => ?_
    exact someGroupBody_yields hd _ _ (Nat.le_trans hstart h₂.le)

theorem atom_yields : Places (n + 1) r (atom d) r.lastStop found := by
  refine .get fun hr => ?_
  dsimp only
  rw [hr.offset_eq]
  split
  · exact .none (Nat.le_refl _)
  · rename_i c hhead
    have hne : r.rest ≠ [] := rest_ne_nil_of_peek hhead
    split
    · refine .skip fun h => .bind (.report _ hr.currentSpan_le.1 hr.currentSpan_le.2) ?_
      exact fun _ r₁ h₁ _ => .none (Nat.le_trans h.le h₁.le)
    split
    · refine .bind bounds_yields fun _ r₁ h₁ _ => .bind (.reportFrom _ h₁.le) fun _ r₂ h₂ _ => ?_
      exact .none (Nat.le_trans h₁.le h₂.le)
    split
    · exact groupWith_yields hd hne
    split
    · refine .bind (bracketsWith_yields hd.brackets r hne) fun c r₁ _ h => .pure fun _ => ?_
      exact Between.regex_iff.mpr h.1
    split
    · exact .skip fun h => .leaf h.le (fun _ => rfl) fun _ => rfl
    split
    · exact .skip fun h => .leaf (f := .boundary _) h.le (fun _ => rfl) fun _ => rfl
    split
    · exact .skip fun h => .leaf (f := .boundary _) h.le (fun _ => rfl) fun _ => rfl
    split
    · exact escape_yields
    · refine .bind (.plainCharacter _ hne) fun a r₁ h₁ h => .pure fun _ => ?_
      exact .leaf rfl h₁.le h.1

omit hd in
theorem quotedItems_yields : Places n r quotedItems r.lastStop fun items => items.map regex := by
  refine .bind quotation_yields fun cs r₁ h₁ hcs => ?_
  have hitems := Between.items hcs.1 hcs.2
  split
  · rename_i last hlast
    rw [← List.dropLast_append_getLast? last hlast, List.map_append] at hitems
    obtain ⟨mid, hfront, hback⟩ := Between.append_iff.mp hitems
    refine .bind (quantified_yields hback) fun t r₂ h₂ ht => .pure fun _ => ?_
    simpa [Function.comp_def] using hfront.append ht
  · exact .pure fun _ => .nil h₁.le

theorem quantifiedAtom_yields :
    Places (n + 1) r (quantifiedAtom d) r.lastStop fun items => items.map regex := by
  refine .bind (atom_yields hd) fun a r₁ h₁ ha => ?_
  split
  · exact .bind (quantified_yields ha) fun t r₂ h₂ ht => .pure fun _ => ht
  · exact .pure fun _ => .nil h₁.le

theorem sequenceItems_yields (rounds : Nat) :
    Places (n + 1) r (sequenceItems d rounds) r.lastStop fun items => items.map regex := by
  induction rounds generalizing r with
  | zero => exact .pure fun _ => .nil (Nat.le_refl _)
  | succ rounds ih =>
    refine .bind .skipExtended fun _ r₁ h₁ _ => .get fun _ => ?_
    split
    · exact .pure fun _ => .nil h₁.le
    · have hrest : ∀ (items : List Regex) r₂, Passes (n + 1) r₁ r₂ →
          Between r₁.lastStop (items.map regex) r₂.lastStop →
          Places (n + 1) r₂ (do return items ++ (← sequenceItems d rounds)) r.lastStop
            fun items => items.map regex := by
        intro items r₂ h₂ hitems
        refine .bind ih fun more r₃ h₃ hmore => .pure fun _ => ?_
        have hall := (hitems.append hmore).widen h₁.le (Nat.le_refl _)
        simpa using hall
      split
      · exact .bind quotedItems_yields hrest
      · exact .bind (quantifiedAtom_yields hd) hrest

theorem sequence_yields :
    Places (n + 1) r (sequence d) r.lastStop fun t => [regex t] := by
  refine .get fun hr => ?_
  rw [hr.offset_eq]
  refine .bind (sequenceItems_yields hd _) fun items r₁ h₁ hitems => ?_
  split
  · exact .pure fun _ => hitems
  · exact .spanFrom h₁.le (.pure fun _ => .node hitems rfl)

theorem alternatives_yields (rounds : Nat) :
    Places (n + 1) r (alternatives d rounds) r.lastStop fun more => more.map regex := by
  induction rounds generalizing r with
  | zero => exact .pure fun _ => .nil (Nat.le_refl _)
  | succ rounds ih =>
    refine .bind (.eat _) fun found r₁ h₁ _ => ?_
    split
    · refine .bind (sequence_yields hd) fun next r₂ h₂ hnext => ?_
      refine .bind ih fun more r₃ h₃ hmore => .pure fun _ => ?_
      exact (hnext.append hmore).widen h₁.le (Nat.le_refl _)
    · exact .pure fun _ => .nil h₁.le

theorem disjunctionWith_yields :
    Places (n + 1) r (disjunctionWith d) r.lastStop fun t => [regex t] := by
  refine .get fun hr => ?_
  rw [hr.offset_eq]
  refine .bind (sequence_yields hd) fun first r₁ h₁ hfirst => ?_
  refine .bind (alternatives_yields hd _) fun more r₂ h₂ hmore => ?_
  split
  · exact .pure fun _ => hfirst.widen (Nat.le_refl _) h₂.le
  · refine .spanFrom (Nat.le_trans h₁.le h₂.le) (.pure fun _ => .node ?_ rfl)
    exact hfirst.append hmore

end Group

theorem nestedYield (n : Nat) : NestedYield n (nestedReaders n) := by
  induction n with
  | zero =>
    have hempty : ∀ {r : Reader}, r.rest ≠ [] → ¬Fits 0 r := fun hne hr =>
      hne (List.eq_nil_of_length_eq_zero (Nat.le_zero.mp hr.length))
    refine ⟨fun r => ?_, fun r hne hr => (hempty hne hr).elim, fun r hne hr => (hempty hne hr).elim⟩
    refine .get fun hr => .get fun _ => .pure fun _ => ?_
    rw [hr.offset_eq]
    exact .node (.nil (Nat.le_refl _)) rfl
  | succ n ih =>
    exact ⟨fun r => disjunctionWith_yields ih, fun r hne => groupWith_yields ih hne,
      bracketsWith_yields ih.brackets⟩

theorem pattern_yields (chars : List SourceChar) :
    Places (chars.length + 1) r (pattern chars) r.lastStop fun t => [regex t] := by
  refine .bind ((nestedYield _).disjunction r) fun tree r₁ h₁ htree => ?_
  have hfinish : Yields (chars.length + 1) r₁ finish fun _ _ => True := by
    refine .get fun hr₁ => ?_
    split
    · exact .report _ hr₁.currentSpan_le.1 hr₁.currentSpan_le.2
    · exact .pure fun _ => trivial
  exact .bind hfinish fun _ r₂ h₂ _ => .pure fun _ => htree.widen (Nat.le_refl _) h₂.le

/-- A reader before characters that follow each other from the start of a text. -/
theorem Reader.Fits.ofChars {chars : List SourceChar} {stop : Nat} (h : Tiled 0 chars stop)
    (flags : Flags) : Fits (chars.length + 1) (.ofChars chars flags) := by
  have hstop : (Reader.ofChars chars flags).stop = stop := h.stopOf_eq
  exact ⟨Nat.le_succ _, hstop ▸ h, nofun⟩

/-- Whatever text is read, with or without faults, all stretches lie in the text, the parts inside
a part follow each other inside its stretch, and no member of a class is empty. -/
theorem parseChars_spans (quote : Literal.Quote) (text : String) (flags : Flags) :
    let result := parseChars (decode quote text) flags
    (∀ e ∈ result.errors, e.span.start ≤ e.span.stop ∧ e.span.stop ≤ text.length) ∧
    ∀ part ∈ result.tree.visit fun _ => true,
      part.span.start ≤ part.span.stop ∧ part.span.stop ≤ text.length ∧
      (∀ c ∈ part.children, part.span.start ≤ c.span.start ∧ c.span.stop ≤ part.span.stop) ∧
      (part.children.Pairwise fun a b => a.span.stop ≤ b.span.start) ∧
      ∀ e, part = .member e → e.span.start < e.span.stop := by
  intro result
  have htiled : Tiled 0 (decode quote text) text.length := by
    rw [← String.length_toList, ← Nat.zero_add text.toList.length]
    exact decodeFrom_tiled quote 0 text.toList
  obtain ⟨hpasses, htree⟩ := pattern_yields (decode quote text) (.ofChars htiled flags)
  have hstop : (Reader.ofChars (decode quote text) flags).stop = text.length := htiled.stopOf_eq
  obtain ⟨hplaced, -, hlast⟩ := htree.of_single
  have hlength : result.tree.span.stop ≤ text.length := by
    have hle := Nat.le_trans hlast hpasses.fits.lastStop_le
    rwa [hpasses.advances.stop, hstop] at hle
  refine ⟨fun e he => ?_, fun part hpart => ?_⟩
  · have h := hpasses.fits.errors e he
    rwa [hpasses.advances.stop, hstop] at h
  · have hnests : part.Nests := hplaced part hpart
    refine ⟨hnests.row.le, Nat.le_trans (hplaced.inside hpart).2 hlength, fun c hc => ?_, ?_,
      hnests.member⟩
    · have h := hnests.row.mem c.span (List.mem_map_of_mem hc)
      exact ⟨h.1, h.2.2⟩
    · exact List.pairwise_map.mp hnests.row.pairwise

end PhpSyntax.Pattern
