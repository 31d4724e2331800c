import Mathlib.Data.List.Forall2
import PhpSyntax.Pattern.Analysed
import PhpSyntax.Proofs.Pattern.Delimited
import PhpSyntax.Proofs.Tree.Walk

namespace PhpSyntax

theorem Tree.child_mem {tree c : Tree} {i : Nat} (h : tree.child? i = some c) :
    c ∈ tree.preorder :=
  tree.filled_slots_subset (mem_filled_of_child h)

theorem Tree.elementsAt_subset (tree : Tree) (i : Nat) : tree.elementsAt i ⊆ tree.preorder := by
  intro t ht
  unfold elementsAt at ht
  cases hc : tree.child? i with
  | none => simp [hc] at ht
  | some list =>
    have ht : t ∈ list.elements := by simpa [hc] using ht
    exact preorder_subset (child_mem hc) (list.filled_slots_subset (list.elements_subset ht))

theorem CallArgument.ofTree_eq {t : Tree} {a : CallArgument} (h : ofTree? t = some a) :
    a.tree = t := by
  unfold ofTree? at h
  split at h
  · cases h
    rfl
  · simp at h

theorem FunctionCall.ofTree_eq {t : Tree} {call : FunctionCall} (h : ofTree? t = some call) :
    call.tree = t := by
  unfold ofTree? at h
  split at h
  · cases h
    rfl
  · simp at h

theorem FunctionCall.arguments_mem {call : FunctionCall} {a : CallArgument}
    (h : a ∈ call.arguments) : a.tree ∈ call.tree.preorder := by
  unfold arguments at h
  split at h
  · rename_i list hlist
    split at h
    · obtain ⟨t, ht, ha⟩ := List.mem_filterMap.mp h
      rw [CallArgument.ofTree_eq ha]
      exact Tree.preorder_subset (Tree.child_mem hlist) (list.elementsAt_subset 1 ht)
    · simp at h
  · simp at h

theorem ArgumentMatcher.argument_mem {m : ArgumentMatcher} {call : FunctionCall} {a : CallArgument}
    (h : m.argument? call = some a) : a ∈ call.arguments := by
  obtain h | ⟨-, h⟩ := Option.or_eq_some_iff.mp h
  · obtain ⟨name, -, h⟩ := Option.bind_eq_some_iff.mp h
    exact List.mem_of_find?_eq_some h
  · exact (List.mem_filter.mp (List.mem_of_getElem? h)).1

namespace Pattern

section Results

variable {α β ε : Type} {f : α → Except ε β} {as : List α} {bs : List β}

theorem eq_ok_of_toOption {x : Except ε α} {a : α} (h : x.toOption = some a) : x = .ok a := by
  cases x with
  | error e => simp [Except.toOption] at h
  | ok b => simpa [Except.toOption] using h

theorem mapM_returns (h : ∀ a ∈ as, ∃ b, f a = .ok b) : ∃ bs, as.mapM f = .ok bs := by
  induction as with
  | nil => exact ⟨[], rfl⟩
  | cons a as ih =>
    obtain ⟨⟨b, hb⟩, has⟩ := List.forall_mem_cons.mp h
    obtain ⟨bs, hbs⟩ := ih has
    exact ⟨b :: bs, by rw [List.mapM_cons, hb, hbs]; rfl⟩

/-- A list of results has the result of each element. -/
theorem forall₂_of_mapM (h : as.mapM f = .ok bs) : List.Forall₂ (fun a b => f a = .ok b) as bs := by
  induction as generalizing bs with
  | nil =>
    cases h
    exact .nil
  | cons a as ih =>
    rw [List.mapM_cons] at h
    cases ha : f a with
    | error e => simp [ha, bind, Except.bind] at h
    | ok b =>
      cases has : as.mapM f with
      | error e => simp [ha, has, bind, Except.bind] at h
      | ok cs =>
        have h : b :: cs = bs := by simpa [ha, has, bind, Except.bind, pure, Except.pure] using h
        subst bs
        exact .cons ha (ih has)

theorem returns_of_mapM (h : as.mapM f = .ok bs) : ∀ a ∈ as, ∃ b, f a = .ok b := by
  have hall := forall₂_of_mapM h
  clear h
  induction hall with
  | nil => exact nofun
  | cons ha _ ih => exact List.forall_mem_cons.mpr ⟨⟨_, ha⟩, ih⟩

theorem mem_of_mapM (h : as.mapM f = .ok bs) : ∀ b ∈ bs, ∃ a ∈ as, f a = .ok b := by
  have hall := forall₂_of_mapM h
  clear h
  induction hall with
  | nil => exact nofun
  | cons ha _ ih =>
    refine List.forall_mem_cons.mpr ⟨⟨_, .head _, ha⟩, fun b hb => ?_⟩
    obtain ⟨a, hmem, hf⟩ := ih b hb
    exact ⟨a, .tail _ hmem, hf⟩

theorem eq_map_of_mapM {g : α → β} (h : as.mapM f = .ok bs) (hg : ∀ a b, f a = .ok b → b = g a) :
    bs = as.map g := by
  have heq := (forall₂_of_mapM h).imp fun a b hb => (hg a b hb).symm
  rw [← List.forall₂_map_left_iff, List.forall₂_eq_eq_eq] at heq
  exact heq.symm

end Results

/-- A pattern that is looked at stands in a literal inside of the call. -/
theorem patternOf_literal {call : FunctionCall} {p : AnalysedPattern}
    (h : patternOf? call = some p) :
    ∃ token, .leaf .regularStringLiteral token ∈ call.tree.preorder ∧
      DelimitedPattern.ofLiteral (.leaf .regularStringLiteral token) = .ok p.source ∧
      p.parsed = p.source.parse ∧ p.parsed.errors = [] := by
  unfold patternOf? at h
  obtain ⟨name, -, h⟩ := Option.bind_eq_some_iff.mp h
  obtain ⟨⟨⟩, -, h⟩ := Option.bind_eq_some_iff.mp h
  obtain ⟨value, hvalue, h⟩ := Option.bind_eq_some_iff.mp h
  obtain ⟨source, hsource, h⟩ := Option.bind_eq_some_iff.mp h
  obtain ⟨⟨⟩, hguard, h⟩ := Option.bind_eq_some_iff.mp h
  cases h
  have hok := eq_ok_of_toOption hsource
  obtain ⟨token, _, _, hleaf, -⟩ := DelimitedPattern.ofLiteral_writtenIn hok
  obtain ⟨a, ha, hvalue⟩ := Option.bind_eq_some_iff.mp hvalue
  have hin : value.skipParentheses ∈ call.tree.preorder :=
    Tree.preorder_subset (FunctionCall.arguments_mem (ArgumentMatcher.argument_mem ha))
      (Tree.preorder_subset (Tree.child_mem hvalue) value.skipParentheses_mem)
  rw [hleaf] at hin hok
  have herrors := (Option.guard_eq_some' ()).mp hguard
  dsimp only
  exact ⟨token, hin, hok, rfl, by simpa [ParsedPattern.hasErrors] using herrors⟩

theorem analysedPatterns_literal {tree : Tree} {p : AnalysedPattern}
    (h : p ∈ analysedPatterns tree) :
    ∃ token, .leaf .regularStringLiteral token ∈ tree.preorder ∧
      DelimitedPattern.ofLiteral (.leaf .regularStringLiteral token) = .ok p.source ∧
      p.parsed = p.source.parse ∧ p.parsed.errors = [] := by
  obtain ⟨call, hcall, hp⟩ := List.mem_filterMap.mp h
  obtain ⟨t, ht, hof⟩ := List.mem_filterMap.mp hcall
  rw [Tree.descendants_eq, ← FunctionCall.ofTree_eq hof] at ht
  obtain ⟨token, hin, hrest⟩ := patternOf_literal hp
  exact ⟨token, Tree.preorder_subset ht hin, hrest⟩

end Pattern

end PhpSyntax
