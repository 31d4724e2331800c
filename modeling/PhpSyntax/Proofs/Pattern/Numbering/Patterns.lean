import PhpSyntax.Proofs.Pattern.Numbering.Parts

namespace PhpSyntax.Pattern

/-- The second reader comes from the first by reading on, and keeps its number of groups. -/
structure Reader.Keeps (r r' : Reader) : Prop extends Advances r r' where
  groups : r'.groups = r.groups

open Reading Reader

instance : ReadingOrder Keeps where
  refl r := ⟨.refl r, rfl⟩
  trans h h' := ⟨h.toAdvances.trans h'.toAdvances, h'.groups.trans h.groups⟩
  skip r n := ⟨.skip r n, rfl⟩
  report r fault span := ⟨.report r fault span, rfl⟩

variable {chars : List SourceChar} {r : Reader} {α β : Type}

/-- The capturing groups in what is read have the numbers that are counted meanwhile. -/
def Counts (chars : List SourceChar) (r : Reader) (x : Reading α) (trees : α → List Regex) : Prop :=
  r.rest <:+ chars → Does r x fun a r' =>
    Numbered chars r.groups ((trees a).map .regex) r'.groups

namespace Counts

variable {x : Reading α} {f : α → Reading β} {trees : α → List Regex} {more : β → List Regex}

theorem pure {a : α} (h : Numbered chars r.groups ((trees a).map .regex) r.groups) :
    Counts chars r (pure a) trees :=
  fun _ => Does.pure fun _ => h

theorem keeps (hx : MovesIn Keeps x) (hf : ∀ a r', Counts chars r' (f a) more) :
    Counts chars r (x >>= f) more := by
  intro hr
  have h := hf (x r).1 (x r).2 ((hx r).suffix.trans hr)
  rw [(hx r).groups] at h
  exact ⟨(hx r).toAdvances.trans h.1, h.2⟩

theorem get {f : Reader → Reading β} (h : Counts chars r (f r) more) :
    Counts chars r (MonadState.get >>= f) more := h

theorem skip {n : Nat} {f : Unit → Reading β} (h : Counts chars (r.skip n) (f ()) more) :
    Counts chars r (Reading.skip n >>= f) more :=
  fun hr => .skip (h ((Advances.skip r n).suffix.trans hr))

theorem next? {f : Option Char → Reading β} (h : Counts chars (r.skip 1) (f r.head?) more) :
    Counts chars r (Reading.next? >>= f) more :=
  fun hr => .next? (h ((Advances.skip r 1).suffix.trans hr))

theorem eat {c : Char} {f : Bool → Reading β}
    (hyes : r.sees c → Counts chars (r.skip 1) (f true) more)
    (hno : ¬ r.sees c → Counts chars r (f false) more) : Counts chars r (Reading.eat c >>= f) more :=
  fun hr => .eat (fun h => hyes h ((Advances.skip r 1).suffix.trans hr)) fun h => hno h hr

theorem bind (hx : Counts chars r x trees)
    (hf : ∀ a r', r'.rest <:+ chars → Does r' (f a) fun b r'' =>
      Numbered chars r.groups ((trees a).map .regex) r'.groups →
        Numbered chars r.groups ((more b).map .regex) r''.groups) :
    Counts chars r (x >>= f) more :=
  fun hr => .bind (hx hr) fun a r' h => hf a r' (h.suffix.trans hr)

theorem expected {what : PatternExpectation} {f : Unit → Reading β} (hf : (f ()).Moves) :
    Counts chars r (Reading.expected what >>= f) more :=
  fun _ => Does.expected hf

theorem reportFrom {fault : PatternFault} {start : Nat} {f : Unit → Reading β}
    (hf : (f ()).Moves) : Counts chars r (Reading.reportFrom fault start >>= f) more :=
  fun _ => Does.reportFrom hf

/-- A computation that gives no groups. -/
theorem of_leaves (hx : MovesIn Keeps x) (h : Forms True x fun a => ∀ t ∈ trees a, t.isLeaf) :
    Counts chars r x trees := by
  refine fun _ => ⟨(hx r).toAdvances, fun he => ?_⟩
  change Numbered chars r.groups ((trees (x r).1).map .regex) (x r).2.groups
  rw [(hx r).groups]
  exact .leaves ((h r).2 fun _ => he)

end Counts

theorem withFlags_counts {x : Reading α} {trees : α → List Regex} (change : Flags → Flags)
    (h : ∀ r, Counts chars r x trees) : Counts chars r (withFlags change x) trees := by
  intro hr
  have hset : Advances r { r with flags := change r.flags } :=
    .of_same rfl rfl rfl (List.prefix_refl _)
  have hx := h { r with flags := change r.flags } hr
  exact ⟨hset.trans (hx.1.trans (.of_same rfl rfl rfl (List.prefix_refl _))), hx.2⟩

theorem quantified_counts (chars : List SourceChar) (part : Regex) : Does r (quantified part) fun t r' =>
    r'.groups = r.groups ∧ ∀ first next, Numbered chars first [.regex part] next →
      Numbered chars first [.regex t] next := by
  have hnode : Does r (quantified part) fun t _ => ∀ first next,
      Numbered chars first [.regex part] next → Numbered chars first [.regex t] next := by
    refine .moves .skipExtended fun _ _ _ => .moves quantifier_moves fun q _ _ => ?_
    split
    · exact .spanFrom (.pure fun _ first next h => .node rfl trivial h)
    · exact .pure fun _ first next h => h
  exact ⟨hnode.1, fun he => ⟨(quantified_moves (R := Keeps) part r).groups, hnode.2 he⟩⟩

theorem branches_numbered {first next : Nat} {body yes : Regex} {no : Option Regex}
    (hbranches : branches body = (yes, no, none)) (h : Numbered chars first [.regex body] next) :
    Numbered chars first ((yes :: no.toList).map .regex) next := by
  unfold branches at hbranches
  split at hbranches
  · obtain ⟨rfl, rfl, rfl⟩ := by simpa using hbranches
    exact h.of_node rfl trivial
  · obtain ⟨rfl, rfl, -⟩ := by simpa using hbranches
    exact h

theorem groupCall_counts {start : Nat} (hopens : OpensAt chars start false) :
    Counts chars r (groupCall start) ([·]) :=
  .get (.skip (.keeps (.expect _) fun _ _ _ =>
    .spanFrom (.pure fun _ => .group rfl hopens (.nil ..))))

theorem opensCapture_eq (r : Reader) : opensCapture (r.rest.map (·.char)) =
    if r.sees '?' then namesCapture (r.skip 1).head? ((r.skip 1).peek? 1) else true := by
  cases h : r.rest with
  | nil => simp [opensCapture, sees, head?, peek?, h]
  | cons c cs =>
    by_cases hc : c.char = '?'
    · simp [opensCapture, sees, head?, peek?, Reader.skip, h, hc]
    · simp [opensCapture, sees, head?, peek?, h, hc]

/-- The readers inside others count the groups that they give. Groups are read from their
parentheses on. -/
structure NestedReaders.Count (chars : List SourceChar) (n : NestedReaders) : Prop where
  disjunction : ∀ r, Counts chars r n.disjunction ([·])
  group : ∀ r, r.head? = some '(' → Counts chars r n.group Option.toList
  brackets : MovesIn Keeps n.brackets

section Group

variable {n : NestedReaders} (hn : n.Count chars) {start : Nat}
include hn

theorem groupBody_counts (kind : GroupKind) (change : Flags → Flags) (hr : r.rest <:+ chars) :
    Does r (groupBody n start kind change) fun t r' => ∃ element s,
      t = .group kind (some element) s ∧ s.start = start ∧
        Numbered chars r.groups [.regex element] r'.groups := by
  refine .bind (withFlags_counts change hn.disjunction hr) fun element r₁ _ => ?_
  have hexpect := MovesIn.expect (R := Keeps) ')' r₁
  refine ⟨(MovesIn.bind (.expect _) fun _ => .bind (.spanFrom _) fun _ => .pure _) r₁, ?_⟩
  intro _ h
  exact ⟨element, _, rfl, rfl, hexpect.groups ▸ h⟩

/-- A group of a kind that does not capture. -/
theorem plainGroup_counts {kind : GroupKind} {change : Flags → Flags}
    (hkind : kind.isCapturing = false) (hopens : OpensAt chars start false) :
    Counts chars r (do return some (← groupBody n start kind change)) Option.toList := by
  refine fun hr => .bind (groupBody_counts hn kind change hr) fun t r' _ => .pure ?_
  rintro - ⟨element, s, rfl, rfl, h⟩
  exact .group hkind hopens h

/-- A capturing group takes the next number before its content is read. -/
theorem countedGroup_counts (name? : Option String) (hopens : OpensAt chars start true) :
    Counts chars r (do
      let index ← nextIndex
      return some (← groupBody n start (.capturing index name?) id)) Option.toList := by
  intro hr
  have hgroup : Does { r with groups := r.groups + 1 }
      (do return some (← groupBody n start (.capturing (r.groups + 1) name?) id)) fun a r' =>
        Numbered chars r.groups (a.toList.map .regex) r'.groups := by
    refine .bind (groupBody_counts hn (.capturing (r.groups + 1) name?) id hr)
      fun t r' _ => .pure ?_
    rintro - ⟨element, s, rfl, rfl, h⟩
    exact .capture hopens h
  exact ⟨(nextIndex_moves r).trans hgroup.1, hgroup.2⟩

theorem namedGroup_counts (close : Char) (hopens : OpensAt chars start true) :
    Counts chars r (namedGroup n start close) Option.toList := by
  refine .keeps (groupName_moves close) fun name r => ?_
  split
  · exact countedGroup_counts hn _ hopens
  · exact .pure (.nil ..)

/-- The letter `P` is followed by a name, a reference or a call. -/
theorem announcedGroup_counts
    (hopens : OpensAt chars start (namesCapture (some 'P') (r.peek? 1))) :
    Counts chars r (announcedGroup n start) Option.toList := by
  have hhead : (r.skip 1).head? = r.peek? 1 := peek_skip r 1 0
  rw [← hhead] at hopens
  refine .skip (.next? ?_)
  generalize (r.skip 1).head? = c at hopens ⊢
  split
  · exact namedGroup_counts hn _ hopens
  · refine .keeps (groupName_moves _) fun reference r₁ => ?_
    split
    · exact .keeps (.spanFrom start) fun _ _ => .pure (.leaf rfl)
    · exact .pure (.nil ..)
  · refine .keeps (groupName_moves _) fun reference r₁ => ?_
    split
    · exact fun _ => .spanFrom (.pure fun _ => .group rfl hopens (.nil ..))
    · exact .pure (.nil ..)
  · exact .reportFrom (.pure _)

theorem flagGroup_counts (hopens : OpensAt chars start false) :
    Counts chars r (flagGroup n start) Option.toList := by
  refine .keeps flagChange_moves fun change _ => .keeps (.eat _) fun closed r => ?_
  split
  · have hset : Advances r { r with flags := change.apply r.flags } :=
      .of_same rfl rfl rfl (List.prefix_refl _)
    exact fun _ => ⟨hset, fun _ => .group rfl hopens (.nil ..)⟩
  · refine .get ?_
    split
    · exact .expected (.pure _)
    · exact .skip (plainGroup_counts hn rfl hopens)

/-- A group that is read as a condition is numbered as such. -/
theorem condition_counts (hhead : r.head? = some '(') (hr : r.rest <:+ chars) :
    Does r (condition n) fun c r' =>
      Numbered chars r.groups (Part.ofCondition c) r'.groups := by
  refine .get ?_
  split
  · refine .bind (hn.group r hhead hr) fun a r₁ _ => ?_
    split
    · exact .pure fun _ h => Numbered.regex_iff.mp h
    -- Any other group is a fault: it may have been counted, and it is not in the tree.
    · exact .reportFrom (.pure _)
  · have hmoves : MovesIn Keeps (do
        let reference ← takeRun (· ≠ ')')
        let _ ← expect ')'
        return ConditionOf.reference (String.ofList reference) : Reading Condition) :=
      .bind (.takeRun _) fun _ => .bind (.expect _) fun _ => .pure _
    refine .skip ⟨(hmoves _).toAdvances, fun _ => ?_⟩
    have hgroups := (hmoves (r.skip 1)).groups
    exact hgroups ▸ Numbered.nil chars _

theorem conditional_counts (hhead : r.head? = some '(') :
    Counts chars r (conditional n start) ([·]) := by
  refine fun hr => .bind (condition_counts hn hhead hr) fun test r₁ h₁ => ?_
  refine .bind (withFlags_counts id hn.disjunction (h₁.suffix.trans hr)) fun body r₂ _ => ?_
  generalize hbranches : branches body = b
  obtain ⟨yes, no, surplus⟩ := b
  cases surplus with
  | some span =>
    -- Branches after the second one are a fault: their groups are counted and not in the tree.
    refine .faulty (.report _ _) (report_errors_ne_nil r₂ _ span) fun _ => ?_
    exact .bind (.expect _) fun _ => .bind (.spanFrom _) fun _ => .pure _
  | none =>
    have hexpect := MovesIn.expect (R := Keeps) ')' r₂
    refine ⟨(MovesIn.bind (.expect _) fun _ => .bind (.spanFrom _) fun _ => .pure _) r₂, ?_⟩
    intro _ hbody htest
    refine .node rfl trivial ?_
    exact hexpect.groups ▸ htest.append (branches_numbered hbranches hbody)

theorem specialGroup_counts (hopens : OpensAt chars start (namesCapture r.head? (r.peek? 1))) :
    Counts chars r (specialGroup n start) Option.toList := by
  refine .get ?_
  split
  · exact .skip (plainGroup_counts hn rfl (by simpa [*, namesCapture] using hopens))
  · exact .skip (plainGroup_counts hn rfl (by simpa [*, namesCapture] using hopens))
  · exact .skip (plainGroup_counts hn rfl (by simpa [*, namesCapture] using hopens))
  · exact .skip (plainGroup_counts hn rfl (by simpa [*, namesCapture] using hopens))
  · exact .skip (plainGroup_counts hn rfl (by simpa [*, namesCapture] using hopens))
  · exact .skip (plainGroup_counts hn rfl (by simpa [*, namesCapture] using hopens))
  · exact .skip (namedGroup_counts hn _ (by simpa [*, namesCapture] using hopens))
  · exact .skip (namedGroup_counts hn _ (by simpa [*, namesCapture] using hopens))
  · rename_i hhead
    exact announcedGroup_counts hn (hhead ▸ hopens)
  · exact .keeps comment_moves fun _ _ => .pure (.nil ..)
  · exact .bind (conditional_counts hn ‹_›) fun _ _ _ => .pure fun _ h => h
  · have hfalse : namesCapture r.head? (r.peek? 1) = false := by
      rw [‹r.head? = some _›]
      refine namesCapture_eq_false _ ?_ ?_ ?_ <;> (rintro rfl; simp_all)
    rw [hfalse] at hopens
    split
    · exact .bind (groupCall_counts hopens) fun _ _ _ => .pure fun _ h => h
    · exact flagGroup_counts hn hopens
  · exact flagGroup_counts hn (by simpa [*, namesCapture] using hopens)

theorem groupWith_counts (hhead : r.head? = some '(') :
    Counts chars r (groupWith n) Option.toList := by
  intro hr
  obtain ⟨c, cs, hrest, hparen⟩ := exists_rest_of_head hhead
  have hskip : (r.skip 1).rest = cs := by simp [Reader.skip, hrest]
  have hopens : OpensAt chars r.offset (opensCapture ((r.skip 1).rest.map (·.char))) := by
    refine ⟨c, cs, hrest ▸ hr, hparen, ?_, by rw [hskip]⟩
    simp [offset, hrest]
  rw [opensCapture_eq] at hopens
  refine Counts.get (.skip (.eat (fun hsees => ?_) fun hsees => ?_)) hr
  · rw [if_pos hsees] at hopens
    exact specialGroup_counts hn hopens
  · rw [if_neg hsees] at hopens
    exact countedGroup_counts hn none hopens

theorem atom_counts : Counts chars r (atom n) Option.toList := by
  refine .get ?_
  dsimp only
  split
  · exact .pure (.nil ..)
  rename_i c hhead
  split
  · exact .skip (.keeps (.report _ _) fun _ _ => .pure (.nil ..))
  split
  · exact .keeps bounds_moves fun _ _ => .reportFrom (.pure _)
  split
  · rename_i hc
    exact groupWith_counts hn (hc ▸ hhead)
  split
  · exact .keeps (bracketsWith_moves hn.brackets) fun c _ => .pure (.characterClass c)
  split
  · exact .skip (.keeps (.spanFrom _) fun _ _ => .pure (.leaf rfl))
  split
  · exact .skip (.keeps (.spanFrom _) fun _ _ => .pure (.leaf rfl))
  split
  · exact .skip (.keeps (.spanFrom _) fun _ _ => .pure (.leaf rfl))
  split
  · exact .of_leaves escape_moves (escape_leaf.imp fun _ h => by simpa using h)
  · exact .keeps (.plainCharacter _) fun _ _ => .pure (.leaf rfl)

theorem quantifiedAtom_counts : Counts chars r (quantifiedAtom n) id := by
  refine .bind (atom_counts hn) fun a r₁ _ => ?_
  split
  · refine .bind (quantified_counts chars _) fun t r₂ _ => .pure ?_
    rintro - ⟨hgroups, h⟩ hpart
    exact hgroups ▸ h _ _ hpart
  · exact .pure fun _ h => h

end Group

theorem quotedItems_counts : Counts chars r quotedItems id := by
  refine .keeps quotation_moves fun cs r _ => ?_
  split
  · refine .bind (quantified_counts chars _) fun item r₁ _ => .pure ?_
    rintro - ⟨hgroups, h⟩
    have hfront : Numbered chars r.groups ((cs.dropLast.map Regex.character).map .regex) r.groups :=
      .leaves (List.forall_mem_map.mpr fun c _ => rfl)
    have hlast := h r.groups r.groups (.leaf rfl)
    rw [id, List.map_append]
    exact hgroups ▸ hfront.append hlast
  · exact .pure fun _ => .nil ..

section Sequence

variable {n : NestedReaders} (hn : n.Count chars)
include hn

theorem sequenceItems_counts (rounds : Nat) : Counts chars r (sequenceItems n rounds) id := by
  induction rounds generalizing r with
  | zero => exact .pure (.nil ..)
  | succ rounds ih =>
    refine .keeps .skipExtended fun _ r => .get ?_
    split
    · exact .pure (.nil ..)
    · have hrest : ∀ items r₁, r₁.rest <:+ chars →
          Does r₁ (do return items ++ (← sequenceItems n rounds)) fun all r₂ =>
            Numbered chars r.groups (items.map .regex) r₁.groups →
              Numbered chars r.groups ((id all).map .regex) r₂.groups := by
        refine fun items r₁ hr₁ => .bind (ih hr₁) fun more r₂ _ => .pure ?_
        intro _ hmore hitems
        rw [id, List.map_append]
        exact hitems.append hmore
      split
      · exact .bind quotedItems_counts hrest
      · exact .bind (quantifiedAtom_counts hn) hrest

theorem sequence_counts : Counts chars r (sequence n) ([·]) := by
  refine .get (.bind (sequenceItems_counts hn _) fun items r₁ _ => ?_)
  split
  · exact .pure fun _ h => h
  · exact .spanFrom (.pure fun _ h => .node rfl trivial h)

theorem alternatives_counts (rounds : Nat) : Counts chars r (alternatives n rounds) id := by
  induction rounds generalizing r with
  | zero => exact .pure (.nil ..)
  | succ rounds ih =>
    refine .keeps (.eat _) fun found r => ?_
    split
    · refine .bind (sequence_counts hn) fun next r₁ hr₁ => .bind (ih hr₁) fun more r₂ _ => .pure ?_
      exact fun _ hmore hnext => hnext.append hmore
    · exact .pure (.nil ..)

theorem disjunctionWith_counts : Counts chars r (disjunctionWith n) ([·]) := by
  refine .get (.bind (sequence_counts hn) fun first r₁ hr₁ => ?_)
  refine .bind (alternatives_counts hn _ hr₁) fun more r₂ _ => ?_
  split
  · exact .pure fun _ hmore hfirst => hfirst.append hmore
  · exact .spanFrom (.pure fun _ hmore hfirst => .node rfl trivial (hfirst.append hmore))

end Sequence

theorem nestedReaders_count (chars : List SourceChar) (depth : Nat) :
    (nestedReaders depth).Count chars := by
  induction depth with
  | zero =>
    refine ⟨fun r => .get (.get (.pure (.node rfl trivial (.nil ..)))), fun r _ => .pure (.nil ..), ?_⟩
    exact .bind .get fun _ => .bind .get fun _ => .bind .get fun _ => .pure _
  | succ depth ih =>
    exact ⟨fun r => disjunctionWith_counts ih, fun r => groupWith_counts ih,
      bracketsWith_moves ih.brackets⟩

/-- The capturing groups of a pattern without faults have the numbers from one up to the number of
groups that were counted, in the order of their opening parentheses. The groups that capture are
those whose parentheses say so. -/
theorem parseChars_numbers {chars : List SourceChar} {flags : Flags}
    (he : (parseChars chars flags).errors = []) :
    ((parseChars chars flags).tree.visit fun _ => true).filterMap Part.index? =
        List.range' 1 (pattern chars (.ofChars chars flags)).2.groups ∧
      ∀ kind element s, Part.group kind element s ∈
          (parseChars chars flags).tree.visit (fun _ => true) →
        OpensAt chars s.start kind.isCapturing := by
  have h : Counts chars (.ofChars chars flags) (pattern chars) ([·]) := by
    refine .bind ((nestedReaders_count chars _).disjunction _) fun tree r₁ _ => ?_
    have hfinish := finish_moves (R := Keeps) r₁
    refine ⟨(MovesIn.bind finish_moves fun _ => .pure _) r₁, fun _ h => ?_⟩
    exact hfinish.groups ▸ h
  obtain ⟨⟨k, hk, hindices⟩, hopens⟩ := (h List.suffix_rfl).2 he
  have hgroups : (pattern chars (.ofChars chars flags)).2.groups = k := hk.trans (Nat.zero_add k)
  rw [List.map_singleton, List.flatMap_singleton, ← hgroups] at hindices
  exact ⟨hindices, fun kind element s hgroup => hopens _ (.head _) _ hgroup⟩

/-- Groups in conditions, in branches, in other groups and in later alternatives are counted. -/
theorem parseChars_numbers_groups :
    let chars := plainChars "(a(?P<n>b))(?:c)(?(?=(d))(?'m'e)|(f))(?<!g)|(?<k>(h))"
    let parts := (parseChars chars .empty).tree.visit fun _ => true
    (parseChars chars .empty).errors = [] ∧
      parts.filterMap Part.index? = [1, 2, 3, 4, 5, 6, 7] ∧
      ∀ kind element s, Part.group kind element s ∈ parts →
        OpensAt chars s.start kind.isCapturing := by
  intro chars parts
  have he : (parseChars chars .empty).errors = [] := by decide +kernel
  have hgroups : (pattern chars (.ofChars chars .empty)).2.groups = 7 := by decide +kernel
  obtain ⟨hnumbers, hopens⟩ := parseChars_numbers he
  rw [hgroups] at hnumbers
  exact ⟨he, hnumbers, hopens⟩

end PhpSyntax.Pattern
