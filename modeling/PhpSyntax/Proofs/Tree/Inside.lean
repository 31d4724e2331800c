import PhpSyntax.Proofs.Tree.Sound

namespace PhpSyntax.Tree

theorem mem_preorder_self (tree : Tree) : tree ∈ tree.preorder := by
  cases tree <;> simp [preorder]

theorem preorder_subset_of_mem_filled {k : Kind} {cs : List (Option Tree)} {t : Tree}
    (h : t ∈ filled cs) : t.preorder ⊆ (node k cs).preorder := by
  rw [preorder_node]
  exact fun n hn => .tail _ (List.mem_flatMap.mpr ⟨t, h, hn⟩)

theorem mem_filled_of_child {tree c : Tree} {i : Nat} (h : tree.child? i = some c) :
    c ∈ filled tree.slots := by
  have h := Option.join_eq_some_iff.mp h
  exact List.mem_filterMap.mpr ⟨some c, List.mem_of_getElem? h, rfl⟩

theorem filled_slots_subset (tree : Tree) : filled tree.slots ⊆ tree.preorder := by
  cases tree with
  | leaf k t => simp [slots]
  | node k cs => exact fun t ht => preorder_subset_of_mem_filled ht (mem_preorder_self t)

theorem evenItems_subset {α : Type} (as : List α) : evenItems as ⊆ as := by
  induction as using evenItems.induct with
  | case1 => exact List.Subset.refl _
  | case2 a => exact List.Subset.refl _
  | case3 a b rest ih =>
    intro x hx
    obtain rfl | hx := List.mem_cons.mp hx
    · exact .head _
    · exact .tail _ (.tail _ (ih hx))

theorem elements_subset (tree : Tree) : tree.elements ⊆ filled tree.slots := by
  intro t ht
  obtain ⟨slot, hslot, h⟩ := List.mem_filterMap.mp ht
  refine List.mem_filterMap.mpr ⟨slot, ?_, h⟩
  split at hslot
  · exact evenItems_subset _ hslot
  · exact hslot

mutual

/-- Induction over the filled slots of nodes. -/
theorem induct {motive : Tree → Prop} (leaf : ∀ k t, motive (leaf k t))
    (node : ∀ k cs, (∀ t ∈ filled cs, motive t) → motive (node k cs)) :
    ∀ tree : Tree, motive tree
  | .leaf k t => leaf k t
  | .node k cs => node k cs (inductSlots leaf node cs)

theorem inductSlots {motive : Tree → Prop} (leaf : ∀ k t, motive (leaf k t))
    (node : ∀ k cs, (∀ t ∈ filled cs, motive t) → motive (node k cs)) :
    ∀ cs : List (Option Tree), ∀ t ∈ filled cs, motive t
  | [] => nofun
  | none :: cs => inductSlots leaf node cs
  | some t :: cs => List.forall_mem_cons.mpr ⟨induct leaf node t, inductSlots leaf node cs⟩

end

/-- The trees inside a tree inside are inside. -/
theorem preorder_subset {tree t : Tree} (h : t ∈ tree.preorder) : t.preorder ⊆ tree.preorder := by
  induction tree using induct with
  | leaf k u =>
    obtain rfl : t = leaf k u := by simpa [preorder] using h
    exact List.Subset.refl _
  | node k cs ih =>
    rw [preorder_node, List.mem_cons, List.mem_flatMap] at h
    obtain rfl | ⟨c, hc, h⟩ := h
    · exact List.Subset.refl _
    · exact List.Subset.trans (ih c hc h) (preorder_subset_of_mem_filled hc)

theorem tokens_subset {tree t : Tree} (h : t ∈ tree.preorder) : t.tokens ⊆ tree.tokens := by
  induction tree using induct with
  | leaf k u =>
    obtain rfl : t = leaf k u := by simpa [preorder] using h
    exact List.Subset.refl _
  | node k cs ih =>
    rw [preorder_node, List.mem_cons, List.mem_flatMap] at h
    obtain rfl | ⟨c, hc, h⟩ := h
    · exact List.Subset.refl _
    · rw [tokens_node]
      exact fun u hu => List.mem_flatMap.mpr ⟨c, hc, ih c hc h hu⟩

theorem skipParentheses_mem (tree : Tree) : tree.skipParentheses ∈ tree.preorder := by
  induction tree using skipParentheses.induct with
  | case1 open_ inner rest ih =>
    rw [skipParentheses]
    have hinner : inner ∈ filled (open_ :: some inner :: rest) := by
      rw [filled_cons]
      simp
    exact preorder_subset_of_mem_filled hinner ih
  | case2 tree h =>
    rw [skipParentheses]
    · exact mem_preorder_self tree
    · exact h

end PhpSyntax.Tree
