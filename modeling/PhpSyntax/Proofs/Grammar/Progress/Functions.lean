import PhpSyntax.Proofs.Grammar.Functions
import PhpSyntax.Proofs.Grammar.Progress.Combinators

namespace PhpSyntax.Grammar

open Production

variable {n : Nat} {r r' : Nested}

theorem argument_takes (hr : r.AgreesUpTo n r') : Takes n (argument r) (argument r') := by
  refine fun c hc => .get (.ite (fun hs => ?_) fun _ => .ite (fun hs => ?_) fun _ => ?_)
  · have hn := Cursor.not_atEnd_of_seesKind (Bool.and_eq_true_iff.mp hs).1 nofun
    refine (Opens.leaf fun label => ?_).takesInside hc hn
    exact (leaf_keeps .token).bind fun colon => hr.expression.keeps.bind fun _ => .pure _
  · refine (Opens.leaf fun ellipsis => ?_).takesInside hc (Cursor.not_atEnd_of_sees hs)
    exact hr.expression.keeps.bind fun _ => .pure _
  · exact (hr.expression.andThen fun _ => .pure _) hc

theorem arguments_takes (hr : r.AgreesUpTo n r') :
    Takes (n + 1) (arguments r) (arguments r') := by
  refine (expect_takes _).bind fun left c hc => .get (.ite (fun _ => ?_) fun _ => ?_)
  · exact ((leaf_keeps .token).bind fun _ => (leaf_keeps .token).bind fun _ => .pure _) hc
  · exact ((commaList_keeps _ (argument_takes hr)).bind fun _ =>
      (expect_takes _).keeps.bind fun _ => .pure _) hc

theorem attributeUse_takes (hr : r.AgreesUpTo n r') :
    Takes (n + 1) (attributeUse r) (attributeUse r') :=
  name_parses.takes.bind fun _ => (optional_keeps _ (arguments_takes hr).keepsInside).bind
    fun _ => .pure _

theorem attributeGroup_opens (hr : r.AgreesUpTo n r') :
    Opens n (attributeGroup r) (attributeGroup r') := by
  refine .leaf fun left => ?_
  refine (commaList_keeps _ ((attributeUse_takes hr).mono n.le_succ)).bind fun list => ?_
  exact (expect_takes _).keeps.bind fun right => .pure _

theorem attributes_keeps (hr : r.AgreesUpTo n r') :
    Keeps (n + 1) (attributes r) (attributes r') :=
  (gatherTrees_keeps fun _ hc hm =>
    (attributeGroup_opens hr).takes hc (Cursor.not_atEnd_of_sees hm)).bind fun _ => .pure _

theorem typeAtom_takes (hr : r.AgreesUpTo n r') : Takes (n + 1) (typeAtom r) (typeAtom r') := by
  refine fun c hc => .get (.ite (fun hs => ?_) fun _ => ?_)
  · refine (Opens.leaf fun left => ?_).takes hc (Cursor.not_atEnd_of_sees hs)
    refine hr.typeAtom.keeps.bind fun first => ?_
    have hrest := gatherPairs_keeps (fun c => Cursor.not_atEnd_of_sees (p := .ampersand))
      hr.typeAtom.keeps
    exact hrest.bind fun rest => (expect_takes _).keeps.bind fun _ => .pure _
  · exact (typeName_parses.takes.bind fun _ => .pure _) hc

theorem Cursor.not_atEnd_of_seesIntersection {c : Cursor} (h : c.seesIntersection = true) :
    ¬ c.atEnd = true :=
  not_atEnd_of_sees (Bool.and_eq_true_iff.mp h).1

theorem typeDeclaration_takes (hr : r.AgreesUpTo n r') :
    Takes (n + 1) (typeDeclaration r) (typeDeclaration r') := by
  refine fun c hc => .get (.ite (fun hs => ?_) fun _ => ?_)
  · refine (Opens.leaf fun query => ?_).takes hc (Cursor.not_atEnd_of_sees hs)
    exact typeName_parses.takes.keeps.bind fun _ => .pure _
  · refine (typeAtom_takes hr).bind (fun first d hd => .get ?_) hc
    refine .ite (fun _ => ?_) fun _ => .ite (fun _ => ?_) fun _ => .pure .refl
    · exact ((gatherPairs_keeps (fun _ => Cursor.not_atEnd_of_sees) hr.typeAtom.keeps).bind
        fun _ => .pure _) hd
    · exact ((gatherPairs_keeps (fun _ => Cursor.not_atEnd_of_seesIntersection)
        hr.typeAtom.keeps).bind fun _ => .pure _) hd

theorem returnTypeClause_keeps (hr : r.AgreesUpTo n r') :
    Keeps n (returnTypeClause r) (returnTypeClause r') := by
  refine (eat_keeps .colon).bind fun o => ?_
  cases o with
  | none => exact .pure _
  | some colon => exact (typeDeclaration_takes hr).keepsInside.bind fun _ => .pure _

theorem defaultValue_keeps (hr : r.AgreesUpTo n r') :
    Keeps n (defaultValue r) (defaultValue r') :=
  introduced_keeps (eat_keeps _) hr.expression.keeps

theorem parameter_takes (hr : r.AgreesUpTo n r') :
    Takes (n + 1) (parameter r) (parameter r') := by
  -- nothing before the variable has to be there
  refine (attributes_keeps hr).bindTakes fun attributes => ?_
  refine (modifiers_keeps _).bindTakes fun modifiers => ?_
  refine (optional_keeps _ (typeDeclaration_takes hr).keeps).bindTakes fun declaredType => ?_
  refine (eat_keeps _).bindTakes fun byReference => (eat_keeps _).bindTakes fun ellipsis => ?_
  refine variableName_parses.takes.bind fun variableName => ?_
  exact (defaultValue_keeps hr).bind fun value => .pure _

theorem parameterList_takes (hr : r.AgreesUpTo n r') :
    Takes (n + 1) (parameterList r) (parameterList r') := by
  refine (expect_takes _).bind fun left => ?_
  refine (commaList_keeps _ ((parameter_takes hr).mono n.le_succ)).bind fun list => ?_
  exact (expect_takes _).keeps.bind fun right => .pure _

/-- What the head of every function has after its name. -/
theorem signature_keeps {α : Type} {k k' : Tree → Option Tree → Production α}
    (hr : r.AgreesUpTo n r') (hk : ∀ parameters returnType,
      Keeps n (k parameters returnType) (k' parameters returnType)) :
    Keeps n (do k (← parameterList r) (← returnTypeClause r))
      (do k' (← parameterList r') (← returnTypeClause r')) :=
  (parameterList_takes hr).keepsInside.bind fun _ => (returnTypeClause_keeps hr).bind fun _ =>
    hk _ _

theorem functionDeclaration_takes (hr : r.AgreesUpTo n r') (attributes : Tree) :
    Takes (n + 1) (functionDeclaration r attributes) (functionDeclaration r' attributes) := by
  refine (expectKeyword_takes _).bind fun keyword => (eat_keeps _).bind fun byReference => ?_
  refine identifier_parses.takes.keeps.bind fun label => signature_keeps hr fun _ _ => ?_
  exact (Nested.block_takes hr).keepsInside.bind fun body => .pure _

theorem lexicalVariables_opens : Opens n lexicalVariables lexicalVariables := by
  refine .leaf fun keyword => (expect_takes _).keeps.bind fun left => ?_
  refine (commaList_keeps _ capturedVariable_parses.takes).bind fun list => ?_
  exact (expect_takes _).keeps.bind fun right => .pure _

theorem arrowFunction_opens (hr : r.AgreesUpTo n r') (attributes : Tree)
    (modifier : Option Tree) :
    Opens n (arrowFunction r attributes modifier) (arrowFunction r' attributes modifier) := by
  refine .leaf fun keyword => (eat_keeps _).bind fun byReference => signature_keeps hr fun _ _ => ?_
  exact (expect_takes _).keeps.bind fun arrow => hr.expression.keeps.bind fun value => .pure _

theorem closure_takes (hr : r.AgreesUpTo n r') (attributes : Tree) :
    Takes (n + 1) (closure r attributes) (closure r' attributes) := by
  refine (eatKeyword_keeps _).bindTakes fun modifier c hc => .get (.ite (fun hs => ?_) fun _ => ?_)
  · exact (arrowFunction_opens hr attributes modifier).takes hc
      (Cursor.not_atEnd_of_seesKeyword hs)
  · refine (expectKeyword_takes _).bind (fun keyword => (eat_keeps _).bind fun byReference => ?_) hc
    refine (parameterList_takes hr).keepsInside.bind fun parameters => ?_
    refine (optional_keeps _ lexicalVariables_opens.keeps).bind fun captured => ?_
    refine (returnTypeClause_keeps hr).bind fun returnType => ?_
    exact (Nested.block_takes hr).keepsInside.bind fun _ => .pure _

end PhpSyntax.Grammar
