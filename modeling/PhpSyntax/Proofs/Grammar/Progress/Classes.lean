import PhpSyntax.Proofs.Grammar.Classes
import PhpSyntax.Proofs.Grammar.Progress.Functions

namespace PhpSyntax.Grammar

open Production

variable {n : Nat} {r r' : Nested}

theorem constantAssignment_takes (hr : r.AgreesUpTo n r') :
    Takes (n + 1) (constantAssignment r) (constantAssignment r') := by
  refine identifier_parses.takes.bind fun label => ?_
  refine (expect_takes _).keeps.bind fun equal => ?_
  exact hr.expression.keeps.bind fun value => .pure _

theorem initialisedVariable_takes (hr : r.AgreesUpTo n r') :
    Takes (n + 1) (initialisedVariable r) (initialisedVariable r') := by
  refine variableName_parses.takes.bind fun variableName => ?_
  exact (defaultValue_keeps hr).bind fun value => .pure _

theorem useTraitDeclaration_opens : Opens n useTraitDeclaration useTraitDeclaration := by
  refine .leaf fun keyword => nameList_parses.takes.keeps.bind fun traits => ?_
  refine fun c hc => .get (.ite (fun _ => ?_) fun _ => ?_)
  · exact (statementEnd_takes.keeps.bind fun _ => .pure _) hc
  · refine Keeps.bind (leaf_keeps .token) (fun left => ?_) hc
    refine (gatherTrees_keeps fun d hd _ => traitAdaptation_parses.takes hd).bind
      fun adaptations => ?_
    exact (expect_takes _).keeps.bind fun right => .pure _

section Members

variable (hr : r.AgreesUpTo n r') (attributes modifiers : Tree)
include hr

theorem enumCase_opens : Opens n (enumCase r attributes) (enumCase r' attributes) := by
  refine .leaf fun keyword => identifier_parses.takes.keeps.bind fun label => ?_
  refine (defaultValue_keeps hr).bind fun value => ?_
  exact statementEnd_takes.keeps.bind fun _ => .pure _

theorem classConstant_opens :
    Opens n (classConstant r attributes modifiers) (classConstant r' attributes modifiers) := by
  refine .leaf fun keyword => ?_
  refine (optional_keeps _ (typeDeclaration_takes hr).keepsInside).bind fun declaredType => ?_
  refine (commaList_keeps _ ((constantAssignment_takes hr).mono n.le_succ)).bind fun list => ?_
  exact statementEnd_takes.keeps.bind fun _ => .pure _

theorem methodDeclaration_opens : Opens n (methodDeclaration r attributes modifiers)
    (methodDeclaration r' attributes modifiers) := by
  refine .leaf fun keyword => (eat_keeps _).bind fun byReference => ?_
  refine identifier_parses.takes.keeps.bind fun label => signature_keeps hr fun _ _ => ?_
  refine fun c hc => .get (.ite (fun _ => ?_) fun _ => ?_)
  · exact (statementEnd_takes.keeps.bind fun _ => .pure _) hc
  · exact ((Nested.block_takes hr).keepsInside.bind fun _ => .pure _) hc

theorem propertyDeclaration_takes : Takes (n + 1) (propertyDeclaration r attributes modifiers)
    (propertyDeclaration r' attributes modifiers) := by
  refine (optional_keeps _ (typeDeclaration_takes hr).keeps).bindTakes fun declaredType => ?_
  refine (commaList_keeps _ (initialisedVariable_takes hr)).bindTakes fun properties => ?_
  exact statementEnd_takes.bind fun _ => .pure _

end Members

theorem classMember_takes (hr : r.AgreesUpTo n r') :
    Takes (n + 1) (classMember r) (classMember r') := by
  refine fun c hc => .get (.ite (fun hs => ?_) fun _ => ?_)
  · exact useTraitDeclaration_opens.takes hc (Cursor.not_atEnd_of_seesKeyword hs)
  refine (attributes_keeps hr).bindTakes (fun attributes d hd => ?_) hc
  refine .get (.ite (fun hs => ?_) fun _ => ?_)
  · exact (enumCase_opens hr attributes).takes hd (Cursor.not_atEnd_of_seesKeyword hs)
  refine (modifiers_keeps _).bindTakes (fun modifiers e he => ?_) hd
  refine .get (.ite (fun hs => ?_) fun _ => .ite (fun hs => ?_) fun _ => ?_)
  · exact (classConstant_opens hr attributes modifiers).takes he
      (Cursor.not_atEnd_of_seesKeyword hs)
  · exact (methodDeclaration_opens hr attributes modifiers).takes he
      (Cursor.not_atEnd_of_seesKeyword hs)
  · exact propertyDeclaration_takes hr attributes modifiers he

theorem classBody_takes (hr : r.AgreesUpTo n r') :
    Takes (n + 1) (classBody r) (classBody r') := by
  refine (expect_takes _).bind fun left => ?_
  refine (gatherTrees_keeps fun c hc _ => (classMember_takes hr).mono n.le_succ hc).bind
    fun members => ?_
  exact (expect_takes _).keeps.bind fun right => .pure _

theorem extendsClause_keeps : Keeps n extendsClause extendsClause :=
  introduced_keeps (eatKeyword_keeps _) name_parses.takes.keeps

theorem implementsClause_keeps : Keeps n implementsClause implementsClause :=
  introduced_keeps (eatKeyword_keeps _) nameList_parses.takes.keeps

theorem anonymousClass_takes (hr : r.AgreesUpTo n r') :
    Takes (n + 1) (anonymousClass r) (anonymousClass r') := by
  refine (attributes_keeps hr).bindTakes fun attributes => ?_
  refine (expectKeyword_takes _).bind fun keyword => ?_
  refine (optional_keeps _ (arguments_takes hr).keepsInside).bind fun arguments => ?_
  refine extendsClause_keeps.bind fun parent => implementsClause_keeps.bind fun interfaces => ?_
  exact (classBody_takes hr).keepsInside.bind fun body => .pure _

theorem namespaceStatement_opens (hr : r.AgreesUpTo n r') :
    Opens n (namespaceStatement r) (namespaceStatement r') := by
  refine .leaf fun keyword => ?_
  refine (optional_keeps _ name_parses.takes.keeps).bind fun label c hc => ?_
  refine .get (.ite (fun _ => ?_) fun _ => ?_)
  · refine Keeps.bind (leaf_keeps .token) (fun left => ?_) hc
    refine (Nested.statements_keeps hr _).bind fun body => ?_
    exact (expect_takes _).keeps.bind fun right => .pure _
  · exact (statementEnd_takes.keeps.bind fun _ => .pure _) hc

theorem useClause_keeps (importType : Option Tree) (label : Tree) :
    Keeps n (useClause importType label) (useClause importType label) :=
  (introduced_keeps (eatKeyword_keeps _) identifier_parses.takes.keeps).bind fun _ => .pure _

theorem useStatement_opens : Opens n useStatement useStatement := by
  refine .leaf fun keyword => (eatIf_keeps _).bind fun kind => ?_
  refine name_parses.takes.keeps.bind fun first c hc => .get (.ite (fun _ => ?_) fun _ => ?_)
  · refine Keeps.bind (leaf_keeps .token) (fun separator => ?_) hc
    refine (leaf_keeps .token).bind fun left => ?_
    refine (commaList_keeps _ typedUseClause_parses.takes).bind fun clauses => ?_
    refine (expect_takes _).keeps.bind fun right => ?_
    exact statementEnd_takes.keeps.bind fun _ => .pure _
  · refine (useClause_keeps none first).bind (fun clause => ?_) hc
    refine (gatherPairs_keeps (fun _ => Cursor.not_atEnd_of_sees)
      plainUseClause_parses.takes.keeps).bind fun rest => ?_
    exact statementEnd_takes.keeps.bind fun _ => .pure _

theorem constantDeclaration_opens (hr : r.AgreesUpTo n r') :
    Opens n (constantDeclaration r) (constantDeclaration r') := by
  refine .leaf fun keyword => ?_
  refine (commaList_keeps _ ((constantAssignment_takes hr).mono n.le_succ)).bind fun list => ?_
  exact statementEnd_takes.keeps.bind fun _ => .pure _

section Declarations

variable (hr : r.AgreesUpTo n r') (attributes : Tree)
include hr

theorem classDeclaration_takes :
    Takes (n + 1) (classDeclaration r attributes) (classDeclaration r' attributes) := by
  refine (modifiers_keeps _).bindTakes fun modifiers => ?_
  refine (expectKeyword_takes _).bind fun keyword => ?_
  refine identifier_parses.takes.keeps.bind fun label => ?_
  refine extendsClause_keeps.bind fun parent => implementsClause_keeps.bind fun interfaces => ?_
  exact (classBody_takes hr).keepsInside.bind fun body => .pure _

theorem interfaceDeclaration_opens :
    Opens n (interfaceDeclaration r attributes) (interfaceDeclaration r' attributes) := by
  refine .leaf fun keyword => identifier_parses.takes.keeps.bind fun label => ?_
  refine (introduced_keeps (eatKeyword_keeps _) nameList_parses.takes.keeps).bind fun parents => ?_
  exact (classBody_takes hr).keepsInside.bind fun body => .pure _

theorem traitDeclaration_opens :
    Opens n (traitDeclaration r attributes) (traitDeclaration r' attributes) := by
  refine .leaf fun keyword => identifier_parses.takes.keeps.bind fun label => ?_
  exact (classBody_takes hr).keepsInside.bind fun body => .pure _

theorem enumDeclaration_opens :
    Opens n (enumDeclaration r attributes) (enumDeclaration r' attributes) := by
  refine .leaf fun keyword => identifier_parses.takes.keeps.bind fun label => ?_
  refine (introduced_keeps (eat_keeps _) (typeDeclaration_takes hr).keepsInside).bind
    fun backing => ?_
  refine implementsClause_keeps.bind fun interfaces => ?_
  exact (classBody_takes hr).keepsInside.bind fun body => .pure _

theorem declaration_offers :
    Offers (n + 1) (declaration r attributes) (declaration r' attributes) := by
  refine fun c hc => .get (.ite (fun _ => ?_) fun _ => .ite (fun _ => ?_) fun _ =>
    .ite (fun _ => .none) fun _ => .ite (fun hs => ?_) fun _ => .ite (fun hs => ?_) fun _ =>
    .ite (fun hs => ?_) fun _ => .none)
  · exact .some (functionDeclaration_takes hr attributes hc)
  · exact .some (classDeclaration_takes hr attributes hc)
  all_goals have hn := Cursor.not_atEnd_of_seesKeyword (Bool.and_eq_true_iff.mp hs).1
  · exact .some ((interfaceDeclaration_opens hr attributes).takes hc hn)
  · exact .some ((traitDeclaration_opens hr attributes).takes hc hn)
  · exact .some ((enumDeclaration_opens hr attributes).takes hc hn)

end Declarations

end PhpSyntax.Grammar
