import PhpSyntax.Proofs.View.Layout
import PhpSyntax.View.ArgumentMatcher

/-!
The argument that is passed for a parameter. A named argument may stand anywhere, and of the others
only the order among them counts, so that calls with the same arguments in another order pass the
same argument.
-/

namespace PhpSyntax

variable {call call' : FunctionCall} {a : CallArgument} {args args' : List CallArgument}

def DistinctNames (args : List CallArgument) : Prop :=
  (args.filterMap CallArgument.name?).Nodup

/-- The arguments of `call'` are those of `call` in another order, in which those without a name
stand as before. -/
structure FunctionCall.Rearranges (call call' : FunctionCall) : Prop where
  perm : call'.arguments.Perm call.arguments
  unnamed : call'.arguments.filter (·.name?.isNone) = call.arguments.filter (·.name?.isNone)

/-- The argument has the name of the parameter. If none has, it is the one without a name with as
many such arguments in front of it as there are parameters in front of the parameter. -/
inductive ArgumentMatcher.Binds (m : ArgumentMatcher) (args : List CallArgument)
    (a : CallArgument) : Prop
  | named {name : String} (hname : m.name? = some name) (ha : a ∈ args)
    (h : a.name? = some name)
  | unnamed {before after : List CallArgument}
    (hnamed : ∀ name, m.name? = some name → ∀ b ∈ args, b.name? ≠ some name)
    (hargs : args = before ++ a :: after) (h : a.name? = none)
    (hbefore : before.countP (·.name?.isNone) = m.position)

def FunctionCall.Takes (call : FunctionCall) (es : List Tree) : Prop :=
  ∃ args, call.tree.child? 1 = some args ∧ args.kind = .arguments ∧ args.ListsAt 1 es

theorem FunctionCall.Takes.arguments_eq {es : List Tree} (h : call.Takes es) :
    call.arguments = es.filterMap CallArgument.ofTree? := by
  obtain ⟨args, hargs, hkind, hes⟩ := h
  rw [arguments, hargs]
  simp only [if_pos hkind, hes.elementsAt_eq]

/-- Elements may move between the separators of a call, which may end with a comma or not. -/
theorem FunctionCall.Takes.rearranges {es es' : List Tree} (h : call.Takes es)
    (h' : call'.Takes es') (hperm : es'.Perm es)
    (hunnamed : es'.filter (fun e => (e.textAt? 0).isNone) =
      es.filter (fun e => (e.textAt? 0).isNone)) : call.Rearranges call' where
  perm := by
    rw [h.arguments_eq, h'.arguments_eq]
    exact hperm.filterMap _
  unnamed := by
    have hfilter (es : List Tree) :
        (es.filterMap CallArgument.ofTree?).filter (·.name?.isNone) =
          (es.filter fun e => (e.textAt? 0).isNone).filterMap CallArgument.ofTree? := by
      rw [List.filter_filterMap, List.filterMap_filter]
      refine congrArg (List.filterMap · es) (funext fun e => ?_)
      unfold CallArgument.ofTree?
      split
      · rfl
      · exact (ite_self none).symm
    rw [h.arguments_eq, h'.arguments_eq, hfilter, hfilter, hunnamed]

theorem find?_name_eq_some_iff (h : DistinctNames args) {name : String} :
    args.find? (·.name? = some name) = some a ↔ a ∈ args ∧ a.name? = some name := by
  rw [List.find?_eq_some_iff_append, decide_eq_true_iff]
  constructor
  · rintro ⟨hname, before, after, rfl, -⟩
    exact ⟨List.mem_append_right _ List.mem_cons_self, hname⟩
  · rintro ⟨ha, hname⟩
    obtain ⟨before, after, rfl⟩ := List.append_of_mem ha
    rw [DistinctNames, List.filterMap_append, List.filterMap_cons_some hname] at h
    refine ⟨hname, before, after, rfl, fun b hb => ?_⟩
    have hne : b.name? ≠ some name := fun hb' => (List.nodup_append.mp h).2.2 name
      (List.mem_filterMap.mpr ⟨b, hb, hb'⟩) name List.mem_cons_self rfl
    simpa using hne

theorem find?_name_eq_none_iff {name : String} :
    args.find? (·.name? = some name) = none ↔ ∀ b ∈ args, b.name? ≠ some name := by
  simp [List.find?_eq_none]

/-- The items with a property are counted by those in front of them that have it, too. -/
theorem filter_getElem?_eq_some_iff {α : Type} {p : α → Bool} {l : List α} {n : Nat} {a : α} :
    (l.filter p)[n]? = some a ↔
      ∃ before after, l = before ++ a :: after ∧ p a = true ∧ before.countP p = n := by
  constructor
  · intro h
    obtain ⟨hn, ha⟩ := List.getElem?_eq_some_iff.mp h
    have hsplit : l.filter p = (l.filter p).take n ++ a :: (l.filter p).drop (n + 1) := by
      rw [← ha, ← List.drop_eq_getElem_cons, List.take_append_drop]
    obtain ⟨front, back, rfl, hfront, hback⟩ := List.filter_eq_append_iff.mp hsplit
    obtain ⟨others, after, rfl, hothers, hp, -⟩ := List.filter_eq_cons_iff.mp hback
    refine ⟨front ++ others, after, (List.append_assoc ..).symm, hp, ?_⟩
    rw [List.countP_append, List.countP_eq_zero.mpr hothers, List.countP_eq_length_filter, hfront,
      List.length_take_of_le (Nat.le_of_lt hn), Nat.add_zero]
  · rintro ⟨before, after, rfl, ha, rfl⟩
    rw [List.filter_append, List.filter_cons_of_pos ha, List.countP_eq_length_filter,
      List.getElem?_append_right (Nat.le_refl _), Nat.sub_self]
    rfl

namespace ArgumentMatcher

variable {m : ArgumentMatcher}

theorem argument_eq_some_iff (h : DistinctNames call.arguments) :
    m.argument? call = some a ↔ m.Binds call.arguments a := by
  rw [argument?, Option.or_eq_some_iff]
  constructor
  · rintro (hfind | ⟨hnone, hplace⟩)
    · obtain ⟨name, hname, hfind⟩ := Option.bind_eq_some_iff.mp hfind
      obtain ⟨ha, hname'⟩ := (find?_name_eq_some_iff h).mp hfind
      exact .named hname ha hname'
    · obtain ⟨before, after, hargs, ha, hcount⟩ := filter_getElem?_eq_some_iff.mp hplace
      refine .unnamed (fun name hname => ?_) hargs (Option.isNone_iff_eq_none.mp ha) hcount
      rw [hname] at hnone
      exact find?_name_eq_none_iff.mp hnone
  · rintro (⟨hname, ha, hname'⟩ | ⟨hnamed, hargs, ha, hcount⟩)
    · have hfind := (find?_name_eq_some_iff h).mpr ⟨ha, hname'⟩
      exact .inl (Option.bind_eq_some_iff.mpr ⟨_, hname, hfind⟩)
    · refine .inr ⟨Option.bind_eq_none_iff.mpr fun name hname => ?_, ?_⟩
      · exact find?_name_eq_none_iff.mpr (hnamed name hname)
      · exact filter_getElem?_eq_some_iff.mpr
          ⟨_, _, hargs, Option.isNone_iff_eq_none.mpr ha, hcount⟩

/-- Calls with the same arguments in another order pass the same argument for a parameter: the one
with its name or, if there is none, the one at its place. -/
theorem argument_rearranged (hnames : DistinctNames call.arguments)
    (h : call.Rearranges call') (m : ArgumentMatcher) :
    m.argument? call' = m.argument? call ∧ m.value? call' = m.value? call ∧
      m.matchesValue call' = m.matchesValue call ∧
      ∀ a, m.argument? call = some a ↔ m.Binds call.arguments a := by
  have hnames' : DistinctNames call'.arguments := (h.perm.filterMap _).nodup_iff.mpr hnames
  have hfind (name : String) : call'.arguments.find? (·.name? = some name) =
      call.arguments.find? (·.name? = some name) := by
    ext a
    rw [find?_name_eq_some_iff hnames, find?_name_eq_some_iff hnames', h.perm.mem_iff]
  have hsame : m.argument? call' = m.argument? call := by
    simp only [argument?, hfind, h.unnamed]
  have hvalue : m.value? call' = m.value? call := by rw [value?, hsame, value?]
  exact ⟨hsame, hvalue, by rw [matchesValue, hvalue, matchesValue],
    fun a => argument_eq_some_iff hnames⟩

/-- A named argument moves to the front, in front of an unpacked one, and a comma comes in at the
end. -/
theorem argument_rearranged_trailing :
    let leaf (kind : Kind) (text : String) : Option Tree :=
      some (.leaf kind ⟨.identifier, text, .start, []⟩)
    let call (slots : List (Option Tree)) : FunctionCall :=
      ⟨.node .functionCall [leaf .nameIdentifier "f", some (.node .arguments
        [leaf .token "(", some (.node .separatedList slots), leaf .token ")"])], rfl⟩
    let x : Tree := .node .callArgument [none, none, leaf .variableIdentifier "$x"]
    let y : Tree := .node .callArgument [none, none, some (.node .spreadArgument
      [leaf .token "...", leaf .variableIdentifier "$y"])]
    let flags : Tree := .node .callArgument [leaf .nameIdentifier "flags", leaf .token ":",
      leaf .variableIdentifier "$z"]
    let comma := leaf .token ","
    let written := call [some x, comma, some y, comma, some flags]
    let moved := call [some flags, comma, some x, comma, some y, comma]
    let m := ofParameter 1 (some "pattern")
    DistinctNames written.arguments ∧ written.Rearranges moved ∧
      m.argument? written = some ⟨y, rfl⟩ ∧
      m.argument? moved = m.argument? written ∧ m.value? moved = m.value? written ∧
      m.matchesValue moved = m.matchesValue written ∧
      ∀ a, m.argument? written = some a ↔ m.Binds written.arguments a := by
  intro leaf call x y flags comma written moved m
  have hwritten : written.Takes [x, y, flags] := ⟨_, rfl, rfl, _, rfl, ⟨rfl, rfl⟩⟩
  have hmoved : moved.Takes [flags, x, y] := ⟨_, rfl, rfl, _, rfl, ⟨rfl, rfl⟩⟩
  have hperm : [flags, x, y].Perm [x, y, flags] :=
    (List.Perm.swap x flags [y]).trans (.cons x (.swap y flags []))
  have hnames : DistinctNames written.arguments := List.pairwise_singleton _ "flags"
  have hmove : written.Rearranges moved := hwritten.rearranges hmoved hperm rfl
  exact ⟨hnames, hmove, rfl, argument_rearranged hnames hmove m⟩

end ArgumentMatcher

end PhpSyntax
