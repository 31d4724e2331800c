import PhpSyntax.Proofs.Pattern.Analysed
import PhpSyntax.Proofs.Tree.Context

/-!
The patterns of calls when another expression is passed for an argument of one of them. A call
looks at its name, at the labels of its arguments and at the literals that they are, and so at
nothing inside another call.
-/

namespace PhpSyntax

namespace Tree

def calls (tree : Tree) : List FunctionCall :=
  tree.preorder.filterMap FunctionCall.ofTree?

def slotsCalls (cs : List (Option Tree)) : List FunctionCall :=
  (filled cs).flatMap calls

theorem calls_node (k : Kind) (cs : List (Option Tree)) :
    (node k cs).calls = (FunctionCall.ofTree? (node k cs)).toList ++ slotsCalls cs := by
  rw [calls, preorder_node, List.filterMap_cons, List.filterMap_flatMap]
  cases FunctionCall.ofTree? (node k cs) <;> rfl

theorem slotsCalls_around (before after : List (Option Tree)) (t : Tree) :
    slotsCalls (before ++ some t :: after) = slotsCalls before ++ (t.calls ++ slotsCalls after) := by
  rw [slotsCalls, filled_append, filled_present, List.flatMap_append, List.flatMap_cons]
  rfl

theorem ofTree_of_ne {k : Kind} (h : k ≠ .functionCall) (cs : List (Option Tree)) :
    FunctionCall.ofTree? (node k cs) = none :=
  dif_neg h

theorem calls_of_ne {k : Kind} (h : k ≠ .functionCall) (cs : List (Option Tree)) :
    (node k cs).calls = slotsCalls cs := by
  rw [calls_node, ofTree_of_ne h]
  rfl

theorem calls_functionCall (cs : List (Option Tree)) :
    (node .functionCall cs).calls = ⟨node .functionCall cs, rfl⟩ :: slotsCalls cs :=
  calls_node ..

end Tree

namespace Pattern

def literalOf? (tree : Tree) : Option DelimitedPattern :=
  (DelimitedPattern.ofLiteral tree.skipParentheses).toOption

theorem literalOf_node (k : Kind) (cs : List (Option Tree)) :
    literalOf? (.node k cs) =
      if k = .parenthesisedExpression then ((Tree.node k cs).child? 1).bind literalOf? else none := by
  by_cases hk : k = .parenthesisedExpression
  · subst hk
    rw [if_pos rfl]
    match cs with
    | [] | [_] | _ :: none :: _ => rfl
    | _ :: some inner :: _ => rw [literalOf?, Tree.skipParentheses]; rfl
  · have hskip : (Tree.node k cs).skipParentheses = .node k cs := by
      rw [Tree.skipParentheses]
      rintro left inner right h
      cases h
      exact hk rfl
    rw [if_neg hk, literalOf?, hskip]
    rfl

/-- What a call reads of an argument: its label, and the pattern that it is. -/
def argumentReads (a : CallArgument) : Option String × Option DelimitedPattern :=
  (a.name?, a.value?.bind literalOf?)

def readPattern? (name? : Option String)
    (arguments : List (Option String × Option DelimitedPattern)) : Option AnalysedPattern := do
  let name ← name?
  guard (isRegexFunction name)
  let a ← (arguments.find? (·.1 = some "pattern")).or (arguments.find? (·.1.isNone))
  let source ← a.2
  guard (!source.parse.hasErrors)
  return ⟨name, source, source.parse⟩

theorem patternArgument_eq (call : FunctionCall) :
    patternArgument.argument? call = (call.arguments.find? (·.name? = some "pattern")).or
      (call.arguments.find? (·.name?.isNone)) := by
  have hhead : call.arguments.find? (·.name?.isNone) =
      (call.arguments.filter (·.name?.isNone))[0]? := by
    rw [← List.head?_filter, List.head?_eq_getElem?]
  rw [hhead]
  rfl

theorem patternOf_eq (call : FunctionCall) :
    patternOf? call = readPattern? call.functionName? (call.arguments.map argumentReads) := by
  have hargument : ((call.arguments.map argumentReads).find? (·.1 = some "pattern")).or
      ((call.arguments.map argumentReads).find? (·.1.isNone)) =
        (patternArgument.argument? call).map argumentReads := by
    rw [List.find?_map, List.find?_map, ← Option.map_or, patternArgument_eq]
    rfl
  rw [readPattern?, hargument, patternOf?]
  unfold ArgumentMatcher.value?
  cases patternArgument.argument? call with
  | none => rfl
  | some a =>
    simp only [argumentReads, literalOf?, Option.bind_eq_bind, Option.bind_some, Option.map_some,
      Option.bind_assoc]

def calleeName? (callee : Tree) : Option String := do
  guard (callee.kind = .nameIdentifier || callee.kind = .namespaceName)
  return FunctionCall.withoutLeadingBackslashes (← callee.text?)

def elementReads? (element : Tree) : Option (Option String × Option DelimitedPattern) :=
  (CallArgument.ofTree? element).map argumentReads

def listReads (list : Tree) : List (Option String × Option DelimitedPattern) :=
  if list.kind = .arguments then (list.elementsAt 1).filterMap elementReads? else []

theorem arguments_reads (call : FunctionCall) :
    call.arguments.map argumentReads = ((call.tree.child? 1).map listReads).getD [] := by
  rw [FunctionCall.arguments]
  cases call.tree.child? 1 with
  | none => rfl
  | some list =>
    simp only [Option.map_some, Option.getD_some, listReads]
    split
    · rw [List.map_filterMap]
      rfl
    · rfl

theorem elementReads_node (k : Kind) (cs : List (Option Tree)) :
    elementReads? (.node k cs) =
      if k = .callArgument then
        some (((Tree.node k cs).child? 0).bind Tree.text?,
          ((Tree.node k cs).child? 2).bind literalOf?)
      else none := by
  by_cases hk : k = .callArgument
  · subst hk
    rfl
  · have hof : CallArgument.ofTree? (.node k cs) = none := dif_neg hk
    rw [if_neg hk, elementReads?, hof]
    rfl

theorem listReads_node (k : Kind) (cs : List (Option Tree)) :
    listReads (.node k cs) =
      if k = .arguments then
        (((Tree.node k cs).child? 1).map fun l => l.elements.filterMap elementReads?).getD []
      else [] := by
  have hat : ((Tree.node k cs).elementsAt 1).filterMap elementReads? =
      (((Tree.node k cs).child? 1).map fun l => l.elements.filterMap elementReads?).getD [] := by
    rw [Tree.elementsAt]
    cases (Tree.node k cs).child? 1 <;> rfl
  rw [listReads, hat]
  rfl

structure SameForCall (t t' : Tree) : Prop where
  callee : calleeName? t' = calleeName? t
  list : listReads t' = listReads t

/-- What any call around reads is the same. -/
structure SameAround (t t' : Tree) : Prop extends SameForCall t t' where
  text : t'.text? = t.text?
  literal : literalOf? t' = literalOf? t
  element : elementReads? t' = elementReads? t
  elements : t'.elements.filterMap elementReads? = t.elements.filterMap elementReads?

section Replaced

variable {t t' : Tree} (k : Kind) (before after : List (Option Tree))

theorem SameForCall.patternOf (h : SameForCall t t') :
    (FunctionCall.ofTree? (.node k (before ++ some t' :: after))).map patternOf? =
      (FunctionCall.ofTree? (.node k (before ++ some t :: after))).map patternOf? := by
  by_cases hk : k = .functionCall
  · subst hk
    have hname := Tree.child_bind_replaced .functionCall before after h.callee 0
    have hlist := Tree.child_replaced .functionCall before after h.list 1
    refine congrArg some ?_
    rw [patternOf_eq, patternOf_eq, arguments_reads, arguments_reads]
    exact congrArg₂ readPattern? hname (congrArg (·.getD []) hlist)
  · rw [Tree.ofTree_of_ne hk, Tree.ofTree_of_ne hk]

theorem SameAround.node (h : SameAround t t') :
    SameAround (.node k (before ++ some t :: after)) (.node k (before ++ some t' :: after)) where
  callee := rfl
  text := rfl
  list := by
    rw [listReads_node, listReads_node]
    have hlist := Tree.child_replaced (f := fun l => l.elements.filterMap elementReads?)
      k before after h.elements 1
    rw [hlist]
  literal := by
    rw [literalOf_node, literalOf_node, Tree.child_bind_replaced k before after h.literal 1]
  element := by
    have hlabel := Tree.child_bind_replaced k before after h.text 0
    have hvalue := Tree.child_bind_replaced k before after h.literal 2
    rw [elementReads_node, elementReads_node, hlabel, hvalue]
  elements := Tree.elements_replaced k before after h.element

theorem SameAround.fill (h : SameAround t t') (context : Tree.Context) :
    SameAround (context.fill t) (context.fill t') := by
  induction context with
  | hole => exact h
  | inside k before inner after ih => exact ih.node k before after

/-- The calls around a tree have the same patterns, and so have those before and after it. -/
theorem SameAround.calls (h : SameAround t t') (context : Tree.Context) :
    ∃ before before' after, (context.fill t).calls = before ++ (t.calls ++ after) ∧
      (context.fill t').calls = before' ++ (t'.calls ++ after) ∧
      before'.map patternOf? = before.map patternOf? := by
  induction context with
  | hole => exact ⟨[], [], [], (List.append_nil _).symm, (List.append_nil _).symm, rfl⟩
  | inside k left inner right ih =>
    obtain ⟨before, before', after, hcalls, hcalls', hbefore⟩ := ih
    have htop := (h.fill inner).toSameForCall.patternOf k left right
    refine ⟨(FunctionCall.ofTree? (.node k (left ++ some (inner.fill t) :: right))).toList ++
      (Tree.slotsCalls left ++ before),
      (FunctionCall.ofTree? (.node k (left ++ some (inner.fill t') :: right))).toList ++
      (Tree.slotsCalls left ++ before'), after ++ Tree.slotsCalls right, ?_, ?_, ?_⟩
    · rw [Tree.Context.fill, Tree.calls_node, Tree.slotsCalls_around, hcalls]
      simp only [List.append_assoc]
    · rw [Tree.Context.fill, Tree.calls_node, Tree.slotsCalls_around, hcalls']
      simp only [List.append_assoc]
    · rw [List.map_append, List.map_append, List.map_append, List.map_append, hbefore,
        ← Option.toList_map, ← Option.toList_map, htop]

end Replaced

end Pattern

end PhpSyntax
