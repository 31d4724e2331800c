import PhpSyntax.Proofs.Tree.Sound

/-!
A tree around another, and what is seen of the tree inside. Only the slot with that tree differs
when another tree stands there.
-/

namespace PhpSyntax.Tree

inductive Context where
  | hole
  | inside (kind : Kind) (before : List (Option Tree)) (inner : Context)
      (after : List (Option Tree))

def Context.fill : Context → Tree → Tree
  | hole, t => t
  | inside kind before inner after, t =>
    node kind (before ++ some (inner.fill t) :: after)

section Slots

variable {α β : Type} {f : Tree → β} {t t' : Tree} (k : Kind) (before after : List (Option Tree))

theorem map_slots_replaced (h : f t' = f t) :
    (before ++ some t' :: after).map (Option.map f) =
      (before ++ some t :: after).map (Option.map f) := by
  simp [h]

/-- What is seen of the tree in a slot is the same. -/
theorem child_replaced (h : f t' = f t) (i : Nat) :
    ((node k (before ++ some t' :: after)).child? i).map f =
      ((node k (before ++ some t :: after)).child? i).map f := by
  have hmap : ∀ tree : Tree, (tree.child? i).map f = ((tree.slots.map (Option.map f))[i]?).join := by
    intro tree
    rw [child?, List.getElem?_map]
    cases tree.slots[i]? <;> rfl
  rw [hmap, hmap, slots, slots, map_slots_replaced before after h]

theorem child_bind_replaced {f : Tree → Option β} (h : f t' = f t) (i : Nat) :
    ((node k (before ++ some t' :: after)).child? i).bind f =
      ((node k (before ++ some t :: after)).child? i).bind f := by
  have hmap := congrArg (·.bind id) (child_replaced k before after h i)
  simpa only [Option.bind_map, Function.id_comp] using hmap

theorem elements_node (cs : List (Option Tree)) :
    (node k cs).elements = filled (if k.isSeparated then evenItems cs else cs) := rfl

theorem map_evenItems {γ : Type} (g : α → γ) (as : List α) :
    (evenItems as).map g = evenItems (as.map g) := by
  induction as using evenItems.induct with
  | case1 => rfl
  | case2 a => rfl
  | case3 a b rest ih => simp only [List.map_cons, evenItems, ih]

/-- What is seen of the elements of a list is the same. -/
theorem elements_replaced {f : Tree → Option β} (h : f t' = f t) :
    (node k (before ++ some t' :: after)).elements.filterMap f =
      (node k (before ++ some t :: after)).elements.filterMap f := by
  have hmap : ∀ cs : List (Option Tree),
      (filled cs).filterMap f = (cs.map (Option.map f)).filterMap Option.join := by
    intro cs
    rw [filled, List.filterMap_filterMap, List.filterMap_map]
    refine congrArg (List.filterMap · cs) (funext fun c => ?_)
    cases c <;> rfl
  have hslots := map_slots_replaced before after h
  rw [elements_node, elements_node, hmap, hmap]
  by_cases hk : k.isSeparated
  · rw [if_pos hk, if_pos hk, map_evenItems, map_evenItems, hslots]
  · rw [if_neg hk, if_neg hk, hslots]

end Slots

end PhpSyntax.Tree
