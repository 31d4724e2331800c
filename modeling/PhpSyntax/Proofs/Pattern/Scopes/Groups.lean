import PhpSyntax.Proofs.Pattern.Scopes.Classes

namespace PhpSyntax.Pattern

open Reading Reader

variable {r : Reader} {α β : Type}

/-- Without a fault, the regular expressions that are read lead from the flags of the reader before
them to those of the reader after them. -/
def Threads (r : Reader) (x : Reading α) (trees : α → List Regex) : Prop :=
  Does r x fun a r' => Threaded r.flags (trees a) r'.flags

namespace Threads

variable {x : Reading α} {f : α → Reading β} {trees : α → List Regex} {more : β → List Regex}

theorem pure {a : α} (h : Threaded r.flags (trees a) r.flags) : Threads r (pure a) trees :=
  Does.pure fun _ => h

theorem steps (hx : MovesIn Steps x) (hf : ∀ a r', Threads r' (f a) more) :
    Threads r (x >>= f) more := by
  refine Does.steps hx fun a r' h => ?_
  have hthreads := hf a r'
  rwa [Threads, h.flags] at hthreads

theorem get {f : Reader → Reading β} (h : Threads r (f r) more) :
    Threads r (MonadState.get >>= f) more := h

theorem expected {what : PatternExpectation} {f : Unit → Reading β} (hf : (f ()).Moves) :
    Threads r (Reading.expected what >>= f) more :=
  Does.expected hf

theorem reportFrom {fault : PatternFault} {start : Nat} {f : Unit → Reading β}
    (hf : (f ()).Moves) : Threads r (Reading.reportFrom fault start >>= f) more :=
  Does.reportFrom hf

/-- A computation whose trees all are plain. -/
theorem of_plain (hx : MovesIn Steps x) (h : Does r x fun a _ => ∀ t ∈ trees a, t.isPlain) :
    Threads r x trees :=
  (h.steps_and hx).imp fun _ _ _ h => h.1 ▸ .plains r.flags h.2

end Threads

theorem nextIndex_steps : MovesIn Steps nextIndex := fun _ =>
  ⟨.of_same rfl rfl rfl (List.prefix_refl _), rfl⟩

/-- Under changed flags the same holds of these, and they are taken back. -/
theorem withFlags_threads {x : Reading α} {trees : α → List Regex} (change : Flags → Flags)
    (h : ∀ r, Threads r x trees) :
    Does r (withFlags change x) fun a r' =>
      r'.flags = r.flags ∧ ∃ flags', Threaded (change r.flags) (trees a) flags' := by
  have hdoes := withFlags_does ((h { r with flags := change r.flags }).imp
    (Q := fun a _ => ∃ flags', Threaded (change r.flags) (trees a) flags') fun a r' _ h => ⟨_, h⟩)
  exact ⟨hdoes.1, fun he => ⟨rfl, hdoes.2 he⟩⟩

theorem quantified_threads (part : Regex) :
    Does r (quantified part) fun t r' => r'.flags = r.flags ∧
      ∀ flags flags', Threaded flags [part] flags' → Threaded flags [t] flags' := by
  refine Does.steps_and ?_ (quantified_moves part)
  refine .moves .skipExtended fun _ _ _ => .moves quantifier_moves fun q _ _ => ?_
  split
  · exact .spanFrom (.pure fun _ flags flags' h => h.repetition _ _)
  · exact .pure fun _ flags flags' h => h

theorem branches_threaded {flags flags' : Flags} {body yes : Regex} {no : Option Regex}
    (hbranches : branches body = (yes, no, none)) (h : Threaded flags [body] flags') :
    Threaded flags (yes :: no.toList) flags' := by
  unfold branches at hbranches
  split at hbranches
  · obtain ⟨rfl, rfl, hmore⟩ := by simpa using hbranches
    obtain rfl := hmore
    exact h.of_disjunction
  · obtain ⟨rfl, rfl, -⟩ := by simpa using hbranches
    exact h

structure NestedReaders.Thread (n : NestedReaders) : Prop where
  disjunction : ∀ r, Threads r n.disjunction ([·])
  group : ∀ r, Threads r n.group Option.toList
  brackets : ∀ r, NotesClass r n.brackets

section Group

variable {n : NestedReaders} (hn : n.Thread) (start : Nat)
include hn

theorem someGroupBody_threads {kind : GroupKind} {change : Flags → Flags}
    (hchange : ∀ flags, change flags = kind.within flags) :
    Threads r (do return some (← groupBody n start kind change)) Option.toList := by
  have hbody : Threads r (groupBody n start kind change) ([·]) := by
    refine .bind (withFlags_threads change hn.disjunction) fun element r₁ _ => ?_
    refine .steps (.expect _) fun _ r₂ h₂ => .spanFrom (.pure ?_)
    rintro - ⟨hflags, flags', h⟩
    rw [h₂.flags, hflags]
    exact (hchange r.flags ▸ h).group _
  exact .bind hbody fun _ _ _ => .pure fun _ h => h

theorem namedGroup_threads (close : Char) :
    Threads r (namedGroup n start close) Option.toList := by
  refine .steps (groupName_moves close) fun name _ => ?_
  split
  · exact .steps nextIndex_steps fun index _ => someGroupBody_threads hn start fun _ => rfl
  · exact .pure (.nil _)

theorem announcedGroup_threads : Threads r (announcedGroup n start) Option.toList := by
  refine .steps (.skip 1) fun _ _ => .steps .next? fun c _ => ?_
  split
  · exact namedGroup_threads hn start _
  · refine .steps (groupName_moves _) fun reference _ => ?_
    split
    · exact .steps (.spanFrom start) fun _ _ => .pure (.plain _ rfl)
    · exact .pure (.nil _)
  · refine .steps (groupName_moves _) fun reference _ => ?_
    split
    · exact .steps (.spanFrom start) fun _ _ => .pure (.plain _ rfl)
    · exact .pure (.nil _)
  · exact .reportFrom (.pure _)

theorem flagGroup_threads : Threads r (flagGroup n start) Option.toList := by
  refine .steps flagChange_moves fun change _ => .steps (.eat _) fun closed r => ?_
  split
  · have hset : Advances r { r with flags := change.apply r.flags } :=
      .of_same rfl rfl rfl (List.prefix_refl _)
    exact ⟨hset, fun _ => .change r.flags change _⟩
  · refine .get ?_
    split
    · exact .expected (.pure _)
    · exact .steps (.skip 1) fun _ _ => someGroupBody_threads hn start fun _ => rfl

theorem condition_threads :
    Does r (condition n) fun c r' =>
      r'.flags = r.flags ∧ ∀ s ∈ conditionScopes r.flags c, s.1.flags = s.2 := by
  refine .get ?_
  split
  · refine .bind (hn.group r) fun a r₁ _ => ?_
    split
    · refine .pure fun _ h => ?_
      have h := threaded_singleton.mp h
      exact ⟨h.2.symm, by simpa [GroupKind.within] using h.1⟩
    -- Any other group is a fault: its classes are lost, and it may have changed the flags.
    · exact .reportFrom (.pure _)
  · exact .skip (.steps (.takeRun _) fun _ _ h₁ => .steps (.expect _) fun _ _ h₂ =>
      .pure fun _ => ⟨h₂.flags.trans h₁.flags, by simp⟩)

theorem conditional_threads : Threads r (conditional n start) ([·]) := by
  refine .bind (condition_threads hn) fun test r₁ _ => ?_
  refine .bind (withFlags_threads id hn.disjunction) fun body r₂ _ => ?_
  generalize hbranches : branches body = b
  obtain ⟨yes, no, surplus⟩ := b
  cases surplus with
  | some span =>
    -- Branches after the second one are a fault, and are not in the tree.
    refine .faulty (.report _ _) (report_errors_ne_nil r₂ _ span) fun _ => ?_
    exact .bind (.expect _) fun _ => .bind (.spanFrom _) fun _ => .pure _
  | none =>
    refine .steps (.expect _) fun _ r₃ h₃ => .spanFrom (.pure ?_)
    rintro - ⟨hflags₂, flags', hbody⟩ ⟨hflags₁, htest⟩
    rw [id, hflags₁] at hbody
    rw [h₃.flags, hflags₂, hflags₁]
    exact .conditional htest (branches_threaded hbranches hbody) _

theorem specialGroup_threads : Threads r (specialGroup n start) Option.toList := by
  refine .get ?_
  split
  · exact .steps (.skip 1) fun _ _ => someGroupBody_threads hn start fun _ => rfl
  · exact .steps (.skip 1) fun _ _ => someGroupBody_threads hn start fun _ => rfl
  · exact .steps (.skip 1) fun _ _ => someGroupBody_threads hn start fun _ => rfl
  · exact .steps (.skip 1) fun _ _ => someGroupBody_threads hn start fun _ => rfl
  · exact .steps (.skip 2) fun _ _ => someGroupBody_threads hn start fun _ => rfl
  · exact .steps (.skip 2) fun _ _ => someGroupBody_threads hn start fun _ => rfl
  · exact .steps (.skip 1) fun _ _ => namedGroup_threads hn start _
  · exact .steps (.skip 1) fun _ _ => namedGroup_threads hn start _
  · exact announcedGroup_threads hn start
  · exact .steps comment_moves fun _ _ => .pure (.nil _)
  · exact .bind (conditional_threads hn start) fun _ _ _ => .pure fun _ h => h
  · split
    · have hcall : Threads r (groupCall start) ([·]) :=
        .of_plain (groupCall_moves start) ((groupCall_plain start).does.imp fun _ _ _ h => by simpa using h)
      exact .bind hcall fun _ _ _ => .pure fun _ h => h
    · exact flagGroup_threads hn start
  · exact flagGroup_threads hn start

theorem groupWith_threads : Threads r (groupWith n) Option.toList := by
  refine .get (.steps (.skip 1) fun _ _ => .steps (.eat _) fun special _ => ?_)
  split
  · exact specialGroup_threads hn _
  · exact .steps nextIndex_steps fun index _ => someGroupBody_threads hn _ fun _ => rfl

end Group

theorem quotedItems_threads : Threads r quotedItems id := by
  refine .steps quotation_moves fun cs r => ?_
  split
  · refine .bind (quantified_threads _) fun item r₁ _ => .pure ?_
    rintro - ⟨hflags, h⟩
    have hfront : Threaded r.flags (cs.dropLast.map .character) r.flags := by
      refine .plains _ fun t ht => ?_
      obtain ⟨c, -, rfl⟩ := List.mem_map.mp ht
      rfl
    rw [hflags]
    exact hfront.append (h _ _ (.plain _ rfl))
  · exact .pure (.nil _)

section Sequence

variable {n : NestedReaders} (hn : n.Thread)
include hn

theorem atom_threads : Threads r (atom n) Option.toList := by
  refine .get ?_
  dsimp only
  split
  · exact .pure (.nil _)
  split
  · exact .steps (.skip 1) fun _ _ => .steps (.report _ _) fun _ _ => .pure (.nil _)
  split
  · exact .steps bounds_moves fun _ _ => .reportFrom (.pure _)
  split
  · exact groupWith_threads hn
  split
  · refine .bind (bracketsWith_notes hn.brackets) fun c r₁ _ => .pure ?_
    rintro - ⟨hflags, h⟩
    rw [hflags]
    exact .characterClass h
  split
  · exact .steps (.skip 1) fun _ _ => .steps (.spanFrom _) fun _ _ => .pure (.plain _ rfl)
  split
  · exact .steps (.skip 1) fun _ _ => .steps (.spanFrom _) fun _ _ => .pure (.plain _ rfl)
  split
  · exact .steps (.skip 1) fun _ _ => .steps (.spanFrom _) fun _ _ => .pure (.plain _ rfl)
  split
  · exact .of_plain escape_moves (escape_plain.does.imp fun _ _ _ h => by simpa using h)
  · exact .steps (.plainCharacter _) fun _ _ => .pure (.plain _ rfl)

theorem quantifiedAtom_threads : Threads r (quantifiedAtom n) id := by
  refine .bind (atom_threads hn) fun a r₁ _ => ?_
  split
  · refine .bind (quantified_threads _) fun t r₂ _ => .pure ?_
    rintro - ⟨hflags, h⟩ hpart
    rw [hflags]
    exact h _ _ hpart
  · exact .pure fun _ h => h

theorem sequenceItems_threads (rounds : Nat) : Threads r (sequenceItems n rounds) id := by
  induction rounds generalizing r with
  | zero => exact .pure (.nil _)
  | succ rounds ih =>
    refine .steps .skipExtended fun _ r => .get ?_
    split
    · exact .pure (.nil _)
    · have hrest : ∀ items (r₁ : Reader),
          Does r₁ (do return items ++ (← sequenceItems n rounds)) fun all r₂ =>
            Threaded r.flags items r₁.flags → Threaded r.flags all r₂.flags :=
        fun items r₁ => .bind ih fun more _ _ => .pure fun _ hmore hitems => hitems.append hmore
      split
      · exact .bind quotedItems_threads fun items r₁ _ => hrest items r₁
      · exact .bind (quantifiedAtom_threads hn) fun items r₁ _ => hrest items r₁

theorem sequence_threads : Threads r (sequence n) ([·]) := by
  refine .get (.bind (sequenceItems_threads hn _) fun items r₁ _ => ?_)
  split
  · exact .pure fun _ h => h
  · exact .spanFrom (.pure fun _ h => h.sequence _)

theorem alternatives_threads (rounds : Nat) : Threads r (alternatives n rounds) id := by
  induction rounds generalizing r with
  | zero => exact .pure (.nil _)
  | succ rounds ih =>
    refine .steps (.eat _) fun found r => ?_
    split
    · refine .bind (sequence_threads hn) fun next r₁ _ => .bind ih fun more r₂ _ => .pure ?_
      exact fun _ hmore hnext => hnext.append hmore
    · exact .pure (.nil _)

theorem disjunctionWith_threads : Threads r (disjunctionWith n) ([·]) := by
  refine .get (.bind (sequence_threads hn) fun first r₁ _ => ?_)
  refine .bind (alternatives_threads hn _) fun more r₂ _ => ?_
  split
  · exact .pure fun _ hmore hfirst => hfirst.append hmore
  · exact .spanFrom (.pure fun _ hmore hfirst => (hfirst.append hmore).disjunction _)

end Sequence

theorem nestedReaders_thread (depth : Nat) : (nestedReaders depth).Thread := by
  induction depth with
  | zero =>
    refine ⟨fun r => .get (.pure ((Threaded.nil _).sequence _)), fun r => .pure (.nil _), fun r => ?_⟩
    refine .get (.get ?_)
    dsimp only
    exact .get (.pure fun _ => ⟨rfl, Part.holds_union.mpr ⟨rfl, nofun⟩⟩)
  | succ depth ih =>
    exact ⟨fun r => disjunctionWith_threads ih, fun r => groupWith_threads ih,
      fun r => bracketsWith_notes ih.brackets⟩

/-- In a pattern without faults, every class union notes the flags that hold at its place. -/
theorem parseChars_scopes {chars : List SourceChar} {flags : Flags}
    (he : (parseChars chars flags).errors = []) :
    (parseChars chars flags).tree.scopes flags =
      (parseChars chars flags).tree.unions.map fun u => (u, u.flags) := by
  have h : Threads (.ofChars chars flags) (pattern chars) ([·]) := by
    refine .bind ((nestedReaders_thread _).disjunction _) fun tree r₁ _ => ?_
    exact .steps finish_moves fun _ r₂ h₂ => .pure fun _ h => h₂.flags ▸ h
  have hnoted := (threaded_singleton.mp (h.2 he)).1
  rw [← Regex.scopes_fst flags, List.map_map]
  refine (List.map_id _).symm.trans (List.map_congr_left fun s hs => ?_)
  exact Prod.ext rfl (hnoted s hs).symm

/-- Flags reach later parts and later alternatives, but nothing behind the group around them. -/
theorem parseChars_scopes_groups :
    let parsed := parseChars
      (plainChars "(?i)[a](?-i:[b]|(?x)[c]|[[d]&&[e]])(?(?=(?s)[f])[g]|[h])[i]") .empty
    parsed.errors = [] ∧
      parsed.tree.scopes .empty = parsed.tree.unions.map (fun u => (u, u.flags)) ∧
      parsed.tree.unions.map (fun u => u.flags.toText) =
        ["i", "", "x", "x", "x", "x", "x", "x", "is", "i", "i", "i"] := by
  intro parsed
  have he : parsed.errors = [] := by decide +kernel
  exact ⟨he, parseChars_scopes he, by decide +kernel⟩

end PhpSyntax.Pattern
