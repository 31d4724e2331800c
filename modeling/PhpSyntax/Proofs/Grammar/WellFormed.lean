import PhpSyntax.Proofs.Grammar.File
import PhpSyntax.Proofs.Tree.Walk

namespace PhpSyntax

theorem Kind.isLeaf_of_holds {kind : Kind} {t : Token} (h : kind.holds t = true) :
    kind.isLeaf = true := by
  unfold Kind.holds at h
  split at h <;> first | rfl | cases h

namespace Tree

/-- What the kind of a tree says about it: whether it is a single token, which token, how many
slots it has, and which of them hold separators. The checked constructors accept it. -/
structure WellFormed (tree : Tree) : Prop where
  isLeaf_eq : tree.isLeaf = tree.kind.isLeaf
  holds : ∀ t, tree.token? = some t → tree.kind.holds t = true
  arity : ∀ n, tree.kind.arity? = some n → tree.slots.length = n
  leaf : ∀ t, tree.token? = some t → leaf? tree.kind t = some tree
  node : tree.token? = none → node? tree.kind tree.slots = some tree
  separators : tree.kind.isSeparated = true → ∀ i slot, tree.slots[i]? = some slot →
    (isSeparator slot = true ↔ i % 2 = 1)
  elements : tree.kind.isSeparated = true →
    tree.elements = (filled tree.slots).filter fun t => !isSeparator (some t)

theorem Alternates.isSeparator_iff {slots : List (Option Tree)} (h : Alternates slots) {i : Nat}
    {slot : Option Tree} (hi : slots[i]? = some slot) : isSeparator slot = true ↔ i % 2 = 1 := by
  induction slots using Alternates.induct generalizing i with
  | case1 => simp at hi
  | case2 element =>
    obtain ⟨rfl, rfl⟩ : i = 0 ∧ element = slot := by simpa [List.getElem?_singleton] using hi
    simp [show isSeparator element = false from h]
  | case3 element separator rest ih =>
    match i with
    | 0 =>
      obtain rfl : element = slot := by simpa using hi
      simp [h.1]
    | 1 =>
      obtain rfl : separator = slot := by simpa using hi
      simp [h.2.1]
    | i + 2 =>
      rw [ih h.2.2 (by simpa using hi)]
      omega

/-- Between the separators stand the elements, some of which may be absent. -/
theorem Alternates.filled_evenItems {slots : List (Option Tree)} (h : Alternates slots) :
    filled (evenItems slots) = (filled slots).filter fun t => !isSeparator (some t) := by
  have keep : ∀ {slot : Option Tree}, isSeparator slot = false →
      slot.toList = slot.toList.filter fun t => !isSeparator (some t) := by
    intro slot hs
    cases slot <;> simp [hs]
  have drop : ∀ {slot : Option Tree}, isSeparator slot = true →
      (slot.toList.filter fun t => !isSeparator (some t)) = [] := by
    intro slot hs
    cases slot <;> simp [hs]
  induction slots using Alternates.induct with
  | case1 => rfl
  | case2 element => simpa [evenItems, filled_cons] using keep h
  | case3 element separator rest ih =>
    rw [evenItems, filled_cons, filled_cons, filled_cons, List.filter_append, List.filter_append,
      drop h.2.1, List.nil_append, ← keep h.1, ih h.2.2]

theorem node?_eq_some {kind : Kind} {cs : List (Option Tree)} (h : (node? kind cs).isSome = true) :
    node? kind cs = some (node kind cs) ∧ kind.isLeaf = false ∧
      ∀ n, kind.arity? = some n → cs.length = n := by
  unfold node? at h ⊢
  split at h
  · next hk =>
    simp only [Bool.and_eq_true, Bool.not_eq_true'] at hk
    refine ⟨if_pos (by simp [hk]), hk.1, fun n hn => ?_⟩
    have hlen := hk.2
    rw [hn] at hlen
    exact (of_decide_eq_true hlen).symm
  · cases h

theorem Fits.wellFormed {tree : Tree} (h : tree.Fits) : tree.WellFormed := by
  cases tree with
  | leaf kind t =>
    have hk := Kind.isLeaf_of_holds h
    have hs : kind.isSeparated = false := by revert hk; cases kind <;> decide
    have ha : kind.arity? = none := if_pos hk
    exact
      { isLeaf_eq := hk.symm
        holds := by rintro _ ⟨⟩; exact h
        arity := by simp [Tree.kind, ha]
        leaf := by simp [token?, leaf?, Tree.kind, hk]
        node := by simp [token?]
        separators := by simp [Tree.kind, hs]
        elements := by simp [Tree.kind, hs] }
  | node kind cs =>
    obtain ⟨hnode, hsep⟩ := h
    obtain ⟨hsome, hk, ha⟩ := node?_eq_some hnode
    exact
      { isLeaf_eq := hk.symm
        holds := by simp [token?]
        arity := ha
        leaf := by simp [token?]
        node := fun _ => hsome
        separators := fun hs i slot hi => (hsep hs).isSeparator_iff hi
        elements := by
          intro hs
          rw [elements, if_pos hs]
          exact (hsep hs).filled_evenItems }

end Tree

namespace Grammar

/-- Every tree inside the tree of a file is as its kind demands it. -/
theorem parse_wellFormed {ts : List Token} {tree : Tree} (h : parse ts = .ok tree) :
    ∀ n ∈ tree.descendants, n.WellFormed := by
  obtain ⟨-, -, -, -, -, -, -, hsound⟩ := parse_reads h
  rw [Tree.descendants_eq]
  exact fun n hn => (hsound n hn).wellFormed

/-- A list with a comma at its end, which is a separator too. -/
theorem parse_wellFormed_call :
    let ts : List Token := [⟨.openTag, "<?php", ⟨1, 0⟩, []⟩, ⟨.identifier, "f", ⟨1, 6⟩, []⟩,
      ⟨.punctuator, "(", ⟨1, 7⟩, []⟩, ⟨.integer, "1", ⟨1, 8⟩, []⟩, ⟨.punctuator, ",", ⟨1, 9⟩, []⟩,
      ⟨.punctuator, ")", ⟨1, 10⟩, []⟩, ⟨.punctuator, ";", ⟨1, 11⟩, []⟩, ⟨.eof, "", ⟨1, 12⟩, []⟩]
    ∃ tree, parse ts = .ok tree ∧ (∃ n ∈ tree.descendants, n.kind = .separatedList) ∧
      ∀ n ∈ tree.descendants, n.WellFormed := by
  intro ts
  have h : parse ts = .ok _ := rfl
  refine ⟨_, h, ?_, parse_wellFormed h⟩
  rw [Tree.descendants_eq]
  decide

end Grammar

end PhpSyntax
