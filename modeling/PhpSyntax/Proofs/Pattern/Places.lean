import PhpSyntax.Proofs.Pattern.Replaced

namespace PhpSyntax

namespace Tree

theorem evenItems_eq_append {α : Type} {cs xs ys : List α} {c : α}
    (h : evenItems cs = xs ++ c :: ys) :
    ∃ before after, cs = before ++ c :: after ∧
      ∀ d, evenItems (before ++ d :: after) = xs ++ d :: ys := by
  induction cs using evenItems.induct generalizing xs with
  | case1 => simp [evenItems] at h
  | case2 a =>
    obtain ⟨rfl, rfl, rfl⟩ : xs = [] ∧ a = c ∧ ys = [] := by
      cases xs with
      | nil => simpa [evenItems, eq_comm] using h
      | cons x xs => simp [evenItems] at h
    exact ⟨[], [], rfl, fun d => rfl⟩
  | case3 a b rest ih =>
    rw [evenItems] at h
    cases xs with
    | nil =>
      cases h
      exact ⟨[], b :: rest, rfl, fun d => rfl⟩
    | cons x xs =>
      rw [List.cons_append, List.cons.injEq] at h
      obtain ⟨rfl, h⟩ := h
      obtain ⟨before, after, rfl, heven⟩ := ih h
      exact ⟨a :: b :: before, after, rfl, fun d => congrArg (a :: ·) (heven d)⟩

theorem filterMap_eq_append_cons {α β : Type} {f : α → Option β} {as : List α} {xs ys : List β}
    {b : β} (h : as.filterMap f = xs ++ b :: ys) :
    ∃ before a after, as = before ++ a :: after ∧ f a = some b ∧ before.filterMap f = xs ∧
      after.filterMap f = ys := by
  obtain ⟨before, rest, rfl, hbefore, hrest⟩ := List.filterMap_eq_append_iff.mp h
  obtain ⟨skipped, a, after, rfl, hskipped, ha, hafter⟩ := List.filterMap_eq_cons_iff.mp hrest
  refine ⟨before ++ skipped, a, after, by rw [List.append_assoc], ha, ?_, hafter⟩
  rw [List.filterMap_append, hbefore, List.filterMap_eq_nil_iff.mpr hskipped, List.append_nil]

/-- An element of a list stands in a slot of the list. -/
theorem elements_eq_append {list t : Tree} {xs ys : List Tree}
    (h : list.elements = xs ++ t :: ys) :
    ∃ kind before after, list = node kind (before ++ some t :: after) ∧
      ∀ t', (node kind (before ++ some t' :: after)).elements = xs ++ t' :: ys := by
  cases list with
  | leaf k token =>
    have hnil : (leaf k token).elements = [] := by
      rw [elements, slots]
      split <;> rfl
    simp [hnil] at h
  | node k cs =>
    rw [elements_node] at h
    obtain ⟨front, slot, back, hslots, rfl, hfront, hback⟩ := filterMap_eq_append_cons h
    have helements : ∀ t', filled (front ++ some t' :: back) = xs ++ t' :: ys := fun t' => by
      rw [filled_append, filled_present, filled, filled, hfront, hback]
    by_cases hk : k.isSeparated
    · rw [if_pos hk] at hslots
      obtain ⟨before, after, rfl, heven⟩ := evenItems_eq_append hslots
      refine ⟨k, before, after, rfl, fun t' => ?_⟩
      rw [elements_node, if_pos hk, heven]
      exact helements t'
    · rw [if_neg hk] at hslots
      subst hslots
      refine ⟨k, front, back, rfl, fun t' => ?_⟩
      rw [elements_node, if_neg hk]
      exact helements t'

theorem eq_node_of_child {tree t : Tree} {i : Nat} (h : tree.child? i = some t) :
    ∃ kind before after, tree = node kind (before ++ some t :: after) ∧ before.length = i := by
  cases tree with
  | leaf k token => simp [child?, slots] at h
  | node k cs =>
    have hget : cs[i]? = some (some t) := Option.join_eq_some_iff.mp h
    obtain ⟨hi, hslot⟩ := List.getElem?_eq_some_iff.mp hget
    refine ⟨k, cs.take i, cs.drop (i + 1), ?_, List.length_take_of_le (Nat.le_of_lt hi)⟩
    rw [← hslot, ← List.drop_eq_getElem_cons hi, List.take_append_drop]

end Tree

namespace Pattern

structure ArgumentPlace where
  callee : Option Tree
  left : Option Tree
  list : Kind
  before : List (Option Tree)
  label : Option Tree
  colon : Option Tree
  more : List (Option Tree)
  after : List (Option Tree)
  right : List (Option Tree)
  rest : List (Option Tree)

namespace ArgumentPlace

variable (place : ArgumentPlace) (value value' : Tree)

def argument : Tree :=
  .node .callArgument ([place.label, place.colon] ++ some value :: place.more)

def arguments : Tree :=
  .node place.list (place.before ++ some (place.argument value) :: place.after)

def enclosed : Tree :=
  .node .arguments ([place.left] ++ some (place.arguments value) :: place.right)

def call : FunctionCall :=
  ⟨.node .functionCall ([place.callee] ++ some (place.enclosed value) :: place.rest), rfl⟩

theorem sameAround : SameAround (place.call value).tree (place.call value').tree where
  callee := rfl
  list := by rw [call, call, listReads_node, listReads_node]; rfl
  text := rfl
  literal := by rw [call, call, literalOf_node, literalOf_node]; rfl
  element := by rw [call, call, elementReads_node, elementReads_node]; rfl
  elements := by
    refine Tree.elements_replaced .functionCall [place.callee] place.rest ?_
    rw [enclosed, enclosed, elementReads_node, elementReads_node]
    rfl

theorem sameForCall : SameForCall (place.argument value) (place.argument value') where
  callee := rfl
  list := by rw [argument, argument, listReads_node, listReads_node]; rfl

theorem calls_argument : (place.argument value).calls =
    Tree.slotsCalls [place.label, place.colon] ++ (value.calls ++ Tree.slotsCalls place.more) :=
  (Tree.calls_of_ne (by decide) _).trans (Tree.slotsCalls_around _ _ value)

theorem calls_enclosed : (place.enclosed value).calls =
    Tree.slotsCalls [place.left] ++ ((place.arguments value).calls ++
      Tree.slotsCalls place.right) :=
  (Tree.calls_of_ne (by decide) _).trans (Tree.slotsCalls_around _ _ _)

theorem calls_call : (place.call value).tree.calls =
    place.call value :: (Tree.slotsCalls [place.callee] ++ ((place.enclosed value).calls ++
      Tree.slotsCalls place.rest)) :=
  (Tree.calls_functionCall _).trans (congrArg (_ :: ·) (Tree.slotsCalls_around _ _ _))

variable {value value'}

theorem patterns_arguments (h : value'.calls = value.calls) :
    (place.arguments value').calls.map patternOf? =
      (place.arguments value).calls.map patternOf? := by
  have htop := (place.sameForCall value value').patternOf place.list place.before place.after
  have hlist := congrArg Option.toList htop
  rw [Option.toList_map, Option.toList_map] at hlist
  rw [arguments, arguments, Tree.calls_node, Tree.calls_node, List.map_append, List.map_append,
    hlist, Tree.slotsCalls_around, Tree.slotsCalls_around, calls_argument, calls_argument, h]

/-- When an expression with the same calls in it is passed, all calls but the one that it is passed
to have the same patterns. -/
theorem calls_replaced (h : value'.calls = value.calls) (context : Tree.Context) :
    ∃ before after before' after',
      (context.fill (place.call value).tree).calls = before ++ place.call value :: after ∧
      (context.fill (place.call value').tree).calls = before' ++ place.call value' :: after' ∧
      before'.map patternOf? = before.map patternOf? ∧
      after'.map patternOf? = after.map patternOf? := by
  obtain ⟨before, before', after, hcalls, hcalls', hbefore⟩ :=
    (place.sameAround value value').calls context
  rw [calls_call, List.cons_append] at hcalls hcalls'
  refine ⟨before, _, before', _, hcalls, hcalls', hbefore, ?_⟩
  rw [calls_enclosed, calls_enclosed]
  simp only [List.map_append, place.patterns_arguments h]

def callArgument (v : Tree) : CallArgument :=
  ⟨place.argument v, rfl⟩

/-- Each argument of a call that passes an expression is a place for one. -/
theorem exists_of_arguments {call : FunctionCall} {front back : List CallArgument}
    {a : CallArgument} {value : Tree} (h : call.arguments = front ++ a :: back)
    (hvalue : a.value? = some value) :
    ∃ place : ArgumentPlace, call = place.call value ∧ a = place.callArgument value ∧
      ∀ v, (place.call v).arguments = front ++ place.callArgument v :: back := by
  obtain ⟨tree, hkind⟩ := call
  unfold FunctionCall.arguments at h
  split at h
  · next list hlist =>
    split at h
    · next hlistKind =>
      -- the slots around the expression are told apart one after the other, from outside
      obtain ⟨_, callees, rest, rfl, hlength⟩ := Tree.eq_node_of_child hlist
      obtain ⟨callee, rfl⟩ := List.length_eq_one_iff.mp hlength
      clear hlist
      cases hkind
      obtain ⟨inner, hinner⟩ : ∃ inner, list.child? 1 = some inner := by
        refine Option.ne_none_iff_exists'.mp fun hnone => ?_
        simp [Tree.elementsAt, hnone] at h
      obtain ⟨_, lefts, right, rfl, hlength⟩ := Tree.eq_node_of_child hinner
      obtain ⟨left, rfl⟩ := List.length_eq_one_iff.mp hlength
      cases hlistKind
      obtain ⟨xs, t, ys, helements, ha, rfl, rfl⟩ := Tree.filterMap_eq_append_cons h
      obtain ⟨list, before, after, rfl, hplace⟩ := Tree.elements_eq_append helements
      obtain ⟨_, labels, more, htree, hlength⟩ := Tree.eq_node_of_child hvalue
      obtain ⟨label, colon, rfl⟩ := List.length_eq_two.mp hlength
      obtain ⟨tree, hkind⟩ := a
      subst htree
      cases hkind
      obtain rfl := CallArgument.ofTree_eq ha
      refine ⟨⟨callee, left, list, before, label, colon, more, after, right, rest⟩, rfl, rfl,
        fun v => ?_⟩
      have hfilter := congrArg (List.filterMap CallArgument.ofTree?)
        (hplace (.node .callArgument ([label, colon] ++ some v :: more)))
      rw [List.filterMap_append] at hfilter
      exact hfilter
    · simp at h
  · simp at h

end ArgumentPlace

/-- The argument for the pattern is known by its place and its label. -/
theorem patternArgument_split {call : FunctionCall} {a : CallArgument}
    (h : patternArgument.argument? call = some a) :
    ∃ front back, call.arguments = front ++ a :: back ∧
      ∀ call' a', call'.arguments = front ++ a' :: back → a'.name? = a.name? →
        patternArgument.argument? call' = some a' := by
  rw [patternArgument_eq] at h
  obtain h | ⟨hnone, h⟩ := Option.or_eq_some_iff.mp h
  · obtain ⟨ha, front, back, harguments, hfront⟩ := List.find?_eq_some_iff_append.mp h
    refine ⟨front, back, harguments, fun call' a' hcall' hname => ?_⟩
    rw [patternArgument_eq, hcall']
    refine Option.or_eq_some_iff.mpr (.inl (List.find?_eq_some_iff_append.mpr ?_))
    exact ⟨by rwa [hname], front, back, rfl, hfront⟩
  · obtain ⟨ha, front, back, harguments, hfront⟩ := List.find?_eq_some_iff_append.mp h
    refine ⟨front, back, harguments, fun call' a' hcall' hname => ?_⟩
    rw [patternArgument_eq, hcall']
    refine Option.or_eq_some_iff.mpr (.inr ⟨?_, List.find?_eq_some_iff_append.mpr ?_⟩)
    · rw [harguments, List.find?_eq_none] at hnone
      rw [List.find?_eq_none]
      simpa only [List.forall_mem_append, List.forall_mem_cons, hname] using hnone
    · exact ⟨by rwa [hname], front, back, rfl, hfront⟩

/-- The expression for the pattern of a call stands in a place for one. -/
theorem exists_place {call : FunctionCall} {value : Tree}
    (h : patternArgument.value? call = some value) :
    ∃ place : ArgumentPlace, call = place.call value ∧
      ∀ v, patternArgument.value? (place.call v) = some v := by
  obtain ⟨a, ha, hvalue⟩ := Option.bind_eq_some_iff.mp h
  obtain ⟨front, back, harguments, hsame⟩ := patternArgument_split ha
  obtain ⟨place, hcall, rfl, hplace⟩ := ArgumentPlace.exists_of_arguments harguments hvalue
  refine ⟨place, hcall, fun v => ?_⟩
  rw [ArgumentMatcher.value?, hsame _ _ (hplace v) rfl]
  rfl

end Pattern

end PhpSyntax
