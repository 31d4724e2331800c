import Mathlib.Data.List.Flatten
import PhpSyntax.Proofs.Source.Position
import PhpSyntax.Proofs.Tree.Walk

namespace PhpSyntax.Tree

def InOrder (tree : Tree) : Prop :=
  tree.tokens.Pairwise fun t u => t.stop ≤ u.start

theorem tokens_sublist {tree t : Tree} (h : t ∈ tree.preorder) :
    t.tokens.Sublist tree.tokens := by
  induction tree using induct with
  | leaf k u =>
    obtain rfl : t = leaf k u := by simpa [preorder] using h
    exact List.Sublist.refl _
  | node k cs ih =>
    rw [preorder_node, List.mem_cons, List.mem_flatMap] at h
    obtain rfl | ⟨c, hc, h⟩ := h
    · exact List.Sublist.refl _
    · have hslot := (List.singleton_sublist.mpr hc).flatMap tokens
      rw [List.flatMap_singleton] at hslot
      rw [tokens_node]
      exact (ih c hc h).trans hslot

theorem InOrder.of_mem {tree t : Tree} (h : tree.InOrder) (ht : t ∈ tree.preorder) : t.InOrder :=
  h.sublist (tokens_sublist ht)

/-- The tokens of a slot stand before those of the slots after it. -/
theorem InOrder.slots {tree a b : Tree} (h : tree.InOrder) {i j : Nat} (hij : i < j)
    (ha : tree.child? i = some a) (hb : tree.child? j = some b) :
    ∀ t ∈ a.tokens, ∀ u ∈ b.tokens, t.stop ≤ u.start := by
  cases tree with
  | leaf k t => simp [child?, PhpSyntax.Tree.slots] at ha
  | node k cs =>
    rw [InOrder, tokens_node, List.pairwise_flatMap] at h
    have hslots := List.pairwise_filterMap.mp h.2
    obtain ⟨hi, hia⟩ := List.getElem?_eq_some_iff.mp (Option.join_eq_some_iff.mp ha)
    obtain ⟨hj, hjb⟩ := List.getElem?_eq_some_iff.mp (Option.join_eq_some_iff.mp hb)
    exact List.pairwise_iff_getElem.mp hslots i j hi hj hij a hia b hjb

section Ends

variable {ts : List Token} {t u : Token}

theorem start_le_stop (t : Token) : t.start ≤ t.stop :=
  t.start.le_advance _

theorem head_start_le (h : ts.Pairwise fun t u => t.stop ≤ u.start) (ht : ts.head? = some t)
    (hu : u ∈ ts) : t.start ≤ u.start := by
  obtain ⟨rest, rfl⟩ := List.head?_eq_some_iff.mp ht
  obtain rfl | hu := List.mem_cons.mp hu
  · exact le_refl _
  · exact le_trans (start_le_stop t) ((List.pairwise_cons.mp h).1 u hu)

theorem stop_le_getLast (h : ts.Pairwise fun t u => t.stop ≤ u.start)
    (ht : ts.getLast? = some t) (hu : u ∈ ts) : u.stop ≤ t.stop := by
  obtain ⟨init, rfl⟩ := List.getLast?_eq_some_iff.mp ht
  obtain hu | hu := List.mem_append.mp hu
  · exact le_trans ((List.pairwise_append.mp h).2.2 u hu t (.head _)) (start_le_stop t)
  · rw [List.mem_singleton.mp hu]

end Ends

/-- The location of a tree encloses those of the trees inside it, and those of the trees in its
slots stand one after the other. Only trees without tokens have no location. -/
structure Nests (tree : Tree) : Prop where
  absent : tree.location? = none ↔ tree.tokens = []
  forward : ∀ l, tree.location? = some l → l.start ≤ l.stop
  inside : ∀ t ∈ tree.descendants, ∀ inner, t.location? = some inner →
    ∃ outer, tree.location? = some outer ∧ outer.start ≤ inner.start ∧ inner.stop ≤ outer.stop
  ordered : ∀ i j a b l m, i < j → tree.child? i = some a → tree.child? j = some b →
    a.location? = some l → b.location? = some m → l.stop ≤ m.start

theorem InOrder.nests {tree : Tree} (h : tree.InOrder) : tree.Nests where
  absent := location_eq_none_iff
  forward := by
    intro l hl
    obtain ⟨first, last, hfirst, hlast, rfl⟩ := location_eq_some_iff.mp hl
    exact le_trans (start_le_stop first) (stop_le_getLast h hlast (List.mem_of_head? hfirst))
  inside := by
    intro t ht inner hinner
    rw [descendants_eq] at ht
    obtain ⟨first, last, hfirst, hlast, rfl⟩ := location_eq_some_iff.mp hinner
    have hf : first ∈ tree.tokens := tokens_subset ht (List.mem_of_head? hfirst)
    have hl : last ∈ tree.tokens := tokens_subset ht (List.mem_of_getLast? hlast)
    cases houter : tree.location? with
    | none => exact absurd (location_eq_none_iff.mp houter) (List.ne_nil_of_mem hf)
    | some outer =>
      obtain ⟨first', last', hfirst', hlast', rfl⟩ := location_eq_some_iff.mp houter
      exact ⟨_, rfl, head_start_le h hfirst' hf, stop_le_getLast h hlast' hl⟩
  ordered := by
    intro i j a b l m hij ha hb hl hm
    obtain ⟨-, last, -, hlast, rfl⟩ := location_eq_some_iff.mp hl
    obtain ⟨first, -, hfirst, -, rfl⟩ := location_eq_some_iff.mp hm
    exact h.slots hij ha hb last (List.mem_of_getLast? hlast) first (List.mem_of_head? hfirst)

end PhpSyntax.Tree
