import Mathlib.Data.List.Basic
import PhpSyntax.Proofs.Tree.Inside

/-!
The walks over a tree agree with the recursion over it. A walk keeps the trees that are still to be
visited on a stack; a step takes its item from what these trees hold and leaves the rest on the
stack in the same order.
-/

namespace PhpSyntax.Tree

section Steps

variable {α : Type} {walk : Walk α} {stack rest : List Tree} {item : α}

theorem Walk.items_of_stop (h : walk.next? stack = none) : walk.items stack = [] := by
  rw [items]
  split
  · rfl
  · next hnext => cases h.symm.trans hnext

theorem Walk.items_of_step (h : walk.next? stack = some (item, rest)) :
    walk.items stack = item :: walk.items rest := by
  rw [items]
  split
  · next hnext => cases h.symm.trans hnext
  · next hnext =>
    obtain ⟨rfl, rfl⟩ := Prod.mk.inj (Option.some.inj (h.symm.trans hnext))
    rfl

/-- What the trees on the stack hold is the item of a step, followed by what the trees on the stack
after the step hold. -/
structure Walk.Gives (walk : Walk α) (items : Tree → List α) : Prop where
  stops : ∀ {stack}, walk.next? stack = none → stack.flatMap items = []
  steps : ∀ {stack item rest}, walk.next? stack = some (item, rest) →
    stack.flatMap items = item :: rest.flatMap items

/-- The stack of a walk holds whole trees, so the walk goes through them one after the other. -/
theorem Walk.Gives.items_eq {items : Tree → List α} (h : walk.Gives items) (stack : List Tree) :
    walk.items stack = stack.flatMap items := by
  induction stack using Walk.items.induct walk with
  | case1 stack hstop => rw [items_of_stop hstop, h.stops hstop]
  | case2 stack item rest hstep ih => rw [items_of_step hstep, h.steps hstep, ih]

theorem flatMap_pushSlots (items : Tree → List α) (stack : List Tree) (tree : Tree) :
    (pushSlots stack tree).flatMap items =
      (filled tree.slots).flatMap items ++ stack.flatMap items := by
  rw [pushSlots_eq, List.flatMap_append]

end Steps

theorem preorder_eq (tree : Tree) :
    tree.preorder = tree :: (filled tree.slots).flatMap preorder := by
  cases tree with
  | leaf k t => rfl
  | node k cs => rw [preorder_node, slots]

theorem treeWalk_gives : treeWalk.Gives preorder where
  stops := by
    intro stack h
    cases stack with
    | nil => rfl
    | cons top stack => cases h
  steps := by
    intro stack tree rest h
    cases stack with
    | nil => cases h
    | cons top stack =>
      obtain ⟨rfl, rfl⟩ := Prod.mk.inj (Option.some.inj h)
      rw [List.flatMap_cons, preorder_eq, flatMap_pushSlots, List.cons_append]

/-- A node has no token of its own, so its slots hold what it holds. -/
theorem flatMap_tokens_pushSlots (k : Kind) (cs : List (Option Tree)) (stack : List Tree) :
    (pushSlots stack (node k cs)).flatMap tokens = (node k cs :: stack).flatMap tokens := by
  rw [flatMap_pushSlots, List.flatMap_cons, tokens_node, slots]

theorem tokenWalk_gives : tokenWalk.Gives tokens where
  stops := by
    intro stack h
    change nextToken? stack = none at h
    induction stack using nextToken?.induct with
    | case1 => rfl
    | case2 k t stack => simp [nextToken?] at h
    | case3 k cs stack ih =>
      rw [nextToken?] at h
      rw [← flatMap_tokens_pushSlots, ih h]
  steps := by
    intro stack t rest h
    change nextToken? stack = some (t, rest) at h
    induction stack using nextToken?.induct with
    | case1 => simp [nextToken?] at h
    | case2 k u stack =>
      obtain ⟨rfl, rfl⟩ : u = t ∧ stack = rest := by simpa [nextToken?] using h
      rfl
    | case3 k cs stack ih =>
      rw [nextToken?] at h
      rw [← flatMap_tokens_pushSlots, ih h]

theorem descendants_eq (tree : Tree) : tree.descendants = tree.preorder := by
  rw [descendants, treeWalk_gives.items_eq, List.flatMap_singleton]

theorem leafTokens_eq (tree : Tree) : tree.leafTokens = tree.tokens := by
  rw [leafTokens, tokenWalk_gives.items_eq, List.flatMap_singleton]

/-- The tokens of a tree are those of the leaves inside it. -/
theorem tokens_eq_filterMap (tree : Tree) : tree.tokens = tree.preorder.filterMap token? := by
  induction tree using induct with
  | leaf k t => rfl
  | node k cs ih =>
    rw [tokens_node, preorder_node, List.filterMap_cons_none rfl, List.filterMap_flatMap]
    exact List.flatMap_congr ih

def inside? : Tree → List Nat → Option Tree
  | tree, [] => some tree
  | tree, i :: path => (tree.child? i).bind fun t => t.inside? path

mutual

def paths : Tree → List (List Nat)
  | leaf .. => [[]]
  | node _ cs => [] :: slotsPaths 0 cs

/-- The paths through slots, the first of which has the number `i`. -/
def slotsPaths (i : Nat) : List (Option Tree) → List (List Nat)
  | [] => []
  | none :: cs => slotsPaths (i + 1) cs
  | some t :: cs => t.paths.map (i :: ·) ++ slotsPaths (i + 1) cs

end

theorem mem_slotsPaths_iff {cs : List (Option Tree)} {i : Nat} {path : List Nat} :
    path ∈ slotsPaths i cs ↔
      ∃ j t rest, cs[j]? = some (some t) ∧ rest ∈ t.paths ∧ path = (i + j) :: rest := by
  induction cs generalizing i with
  | nil => simp [slotsPaths]
  | cons c cs ih =>
    -- the path goes through the first slot, or through one whose number among the rest is smaller
    have hsplit : (∃ j t rest, (c :: cs)[j]? = some (some t) ∧ rest ∈ t.paths ∧
          path = (i + j) :: rest) ↔
        (∃ t rest, c = some t ∧ rest ∈ t.paths ∧ path = i :: rest) ∨
          path ∈ slotsPaths (i + 1) cs := by
      rw [ih]
      constructor
      · rintro ⟨j, t, rest, hj, hrest, rfl⟩
        cases j with
        | zero => exact .inl ⟨t, rest, by simpa using hj, hrest, rfl⟩
        | succ j => exact .inr ⟨j, t, rest, by simpa using hj, hrest, congrArg (· :: rest) (by omega)⟩
      · rintro (⟨t, rest, rfl, hrest, rfl⟩ | ⟨j, t, rest, hj, hrest, rfl⟩)
        · exact ⟨0, t, rest, rfl, hrest, rfl⟩
        · exact ⟨j + 1, t, rest, hj, hrest, congrArg (· :: rest) (by omega)⟩
    rw [hsplit]
    cases c with
    | none => simp [slotsPaths]
    | some t => simp [slotsPaths, eq_comm]

theorem cons_mem_paths_iff {k : Kind} {cs : List (Option Tree)} {i : Nat} {path : List Nat} :
    i :: path ∈ (node k cs).paths ↔ ∃ t, (node k cs).child? i = some t ∧ path ∈ t.paths := by
  have hslots : i :: path ∈ (node k cs).paths ↔ i :: path ∈ slotsPaths 0 cs := by
    simp [paths]
  rw [hslots, mem_slotsPaths_iff]
  constructor
  · rintro ⟨j, t, rest, hj, hrest, heq⟩
    obtain ⟨rfl, rfl⟩ : i = j ∧ path = rest := by simpa using heq
    exact ⟨t, Option.join_eq_some_iff.mpr hj, hrest⟩
  · rintro ⟨t, ht, hpath⟩
    exact ⟨i, t, path, Option.join_eq_some_iff.mp ht, hpath, by rw [Nat.zero_add]⟩

/-- The paths are those that end at a tree. -/
theorem mem_paths_iff {tree : Tree} {path : List Nat} :
    path ∈ tree.paths ↔ (tree.inside? path).isSome := by
  induction tree using induct generalizing path with
  | leaf k t => cases path <;> simp [paths, inside?, child?, slots]
  | node k cs ih =>
    cases path with
    | nil => simp [paths, inside?]
    | cons i path =>
      rw [cons_mem_paths_iff, inside?]
      cases hchild : (node k cs).child? i with
      | none => simp
      | some t => simpa using ih t (mem_filled_of_child hchild)

/-- Paths through a slot come before those through the slots after it. -/
theorem pairwise_slotsPaths {cs : List (Option Tree)}
    (h : ∀ t ∈ filled cs, t.paths.Pairwise (· < ·)) (i : Nat) :
    (slotsPaths i cs).Pairwise (· < ·) := by
  induction cs generalizing i with
  | nil => exact .nil
  | cons c cs ih =>
    cases c with
    | none => exact ih h (i + 1)
    | some t =>
      have h := List.forall_mem_cons.mp h
      refine List.pairwise_append.mpr ⟨?_, ih h.2 (i + 1), ?_⟩
      · exact List.pairwise_map.mpr (h.1.imp fun hlt => List.cons_lt_cons_iff.mpr (.inr ⟨rfl, hlt⟩))
      · intro p hp q hq
        obtain ⟨p, -, rfl⟩ := List.mem_map.mp hp
        obtain ⟨j, -, q, -, -, rfl⟩ := mem_slotsPaths_iff.mp hq
        exact List.cons_lt_cons_iff.mpr (.inl (by omega))

/-- A path comes before those that go on from it and those that turn to the right of it. -/
theorem pairwise_paths (tree : Tree) : tree.paths.Pairwise (· < ·) := by
  induction tree using induct with
  | leaf k t => exact List.pairwise_singleton _ _
  | node k cs ih =>
    refine List.pairwise_cons.mpr ⟨fun path hpath => ?_, pairwise_slotsPaths ih 0⟩
    obtain ⟨j, -, rest, -, -, rfl⟩ := mem_slotsPaths_iff.mp hpath
    exact List.nil_lt_cons _ _

theorem map_slotsPaths {f : List Nat → Option Tree} {cs : List (Option Tree)} {i : Nat}
    (hf : ∀ j rest, f ((i + j) :: rest) = (cs[j]?).join.bind fun t => t.inside? rest)
    (h : ∀ t ∈ filled cs, t.paths.map t.inside? = t.preorder.map some) :
    (slotsPaths i cs).map f = ((filled cs).flatMap preorder).map some := by
  induction cs generalizing i with
  | nil => rfl
  | cons c cs ih =>
    have hrest : ∀ j rest,
        f ((i + 1 + j) :: rest) = (cs[j]?).join.bind fun t => t.inside? rest := by
      intro j rest
      rw [Nat.add_assoc, Nat.add_comm 1 j, hf (j + 1) rest, List.getElem?_cons_succ]
    cases c with
    | none => exact ih hrest h
    | some t =>
      have h := List.forall_mem_cons.mp h
      have hfirst : ∀ rest, f (i :: rest) = t.inside? rest := fun rest => hf 0 rest
      rw [slotsPaths, List.map_append, List.map_map, ih hrest h.2, filled_present,
        List.flatMap_cons, List.map_append, ← h.1]
      exact congrArg (· ++ _) (List.map_congr_left fun rest _ => hfirst rest)

/-- At the ends of the paths stand the trees of the recursion, in its order. -/
theorem map_inside_paths (tree : Tree) : tree.paths.map tree.inside? = tree.preorder.map some := by
  induction tree using induct with
  | leaf k t => rfl
  | node k cs ih =>
    have hslots := map_slotsPaths (f := (node k cs).inside?) (i := 0)
      (fun j rest => by rw [Nat.zero_add]; rfl) ih
    rw [paths, preorder_node, List.map_cons, List.map_cons, hslots]
    rfl

mutual

theorem firstToken_eq : ∀ tree : Tree, tree.firstToken? = tree.tokens.head?
  | leaf .. => rfl
  | node _ cs => slotsFirstToken_eq cs

theorem slotsFirstToken_eq : ∀ cs : List (Option Tree),
    slotsFirstToken? cs = (slotsTokens cs).head?
  | [] => rfl
  | none :: cs => slotsFirstToken_eq cs
  | some t :: cs => by
    rw [slotsFirstToken?, slotsTokens, List.head?_append, firstToken_eq t, slotsFirstToken_eq cs]

end

mutual

theorem lastToken_eq : ∀ tree : Tree, tree.lastToken? = tree.tokens.getLast?
  | leaf .. => rfl
  | node _ cs => slotsLastToken_eq cs

theorem slotsLastToken_eq : ∀ cs : List (Option Tree),
    slotsLastToken? cs = (slotsTokens cs).getLast?
  | [] => rfl
  | none :: cs => slotsLastToken_eq cs
  | some t :: cs => by
    rw [slotsLastToken?, slotsTokens, List.getLast?_append, lastToken_eq t, slotsLastToken_eq cs]

end

/-- A location runs from the start of the first token to the end of the last. -/
theorem location_eq_some_iff {tree : Tree} {l : Location} :
    tree.location? = some l ↔ ∃ first last, tree.tokens.head? = some first ∧
      tree.tokens.getLast? = some last ∧ l = ⟨first.start, last.stop⟩ := by
  rw [location?, firstToken_eq, lastToken_eq]
  cases tree.tokens.head? <;> cases tree.tokens.getLast? <;>
    simp [Token.locationTo, eq_comm]

theorem location_eq_none_iff {tree : Tree} : tree.location? = none ↔ tree.tokens = [] := by
  rw [location?, firstToken_eq, lastToken_eq]
  cases tree.tokens with
  | nil => simp
  | cons t ts => simp [List.getLast?_cons]

/-- The walks over a tree agree with the recursion over it. A walk over all trees comes to the end
of every path once, on the way from left to right and from the outside to the inside, and a walk
over the tokens gives the tokens of the leaves in that order. The tree reaches from the first of
them to the last. -/
structure Walks (tree : Tree) : Prop where
  trees : tree.descendants = tree.preorder
  once : ∃ paths : List (List Nat), paths.Pairwise (· < ·) ∧
    (∀ path, path ∈ paths ↔ (tree.inside? path).isSome) ∧
    paths.map tree.inside? = tree.descendants.map some
  leaves : tree.leafTokens = tree.descendants.filterMap token?
  flat : tree.leafTokens = tree.tokens
  first : tree.firstToken? = tree.leafTokens.head?
  last : tree.lastToken? = tree.leafTokens.getLast?
  empty : (tree.leafTokens = [] ↔ tree.firstToken? = none) ∧
    (tree.leafTokens = [] ↔ tree.lastToken? = none) ∧
    (tree.leafTokens = [] ↔ tree.location? = none)
  location : ∀ l, tree.location? = some l ↔ ∃ first last, tree.leafTokens.head? = some first ∧
    tree.leafTokens.getLast? = some last ∧ l = ⟨first.start, last.stop⟩

theorem walks_agree (tree : Tree) : tree.Walks where
  trees := descendants_eq tree
  once := by
    refine ⟨tree.paths, pairwise_paths tree, fun path => mem_paths_iff, ?_⟩
    rw [map_inside_paths, descendants_eq]
  leaves := by rw [leafTokens_eq, descendants_eq, tokens_eq_filterMap]
  flat := leafTokens_eq tree
  first := by rw [leafTokens_eq, firstToken_eq]
  last := by rw [leafTokens_eq, lastToken_eq]
  empty := by
    rw [leafTokens_eq, firstToken_eq, lastToken_eq, List.head?_eq_none_iff,
      List.getLast?_eq_none_iff, location_eq_none_iff]
    exact ⟨.rfl, .rfl, .rfl⟩
  location := by
    intro l
    rw [leafTokens_eq]
    exact location_eq_some_iff

end PhpSyntax.Tree
