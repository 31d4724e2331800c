import PhpSyntax.Proofs.Grammar.Expressions
import PhpSyntax.Proofs.Grammar.Progress.Classes

namespace PhpSyntax.Grammar

open Production

variable {n : Nat} {r r' : Nested}

theorem dollarVariable_opens (hr : r.AgreesUpTo n r') :
    Opens n (dollarVariable r) (dollarVariable r') := by
  refine .leaf fun dollar c hc => .get (.ite (fun _ => ?_) fun _ => .ite (fun hs => ?_) fun _ => ?_)
  · refine Keeps.bind (leaf_keeps .token) (fun left => ?_) hc
    refine hr.expression.keeps.bind fun inner => ?_
    exact (expect_takes _).keeps.bind fun right => .pure _
  · exact (hr.dollarVariable hc (Cursor.not_atEnd_of_sees hs)).bind fun _ _ hd => .pure hd.leads
  · exact (variableName_parses.takes.keeps.bind fun _ => .pure _) hc

theorem memberName_takes (hr : r.AgreesUpTo n r') :
    Takes (n + 1) (memberName r) (memberName r') := by
  refine fun c hc => .get (.ite (fun hs => ?_) fun _ => .ite (fun hs => ?_) fun _ =>
    .ite (fun hs => ?_) fun _ => .ite (fun hs => ?_) fun _ => .expected)
  · exact Opens.single.takes hc (Cursor.not_atEnd_of_seesKind hs nofun)
  · exact Opens.single.takes hc (Cursor.not_atEnd_of_seesKind hs nofun)
  · refine (Opens.leaf fun left => ?_).takes hc (Cursor.not_atEnd_of_sees hs)
    refine hr.expression.keeps.bind fun inner => ?_
    exact (expect_takes _).keeps.bind fun right => .pure _
  · exact (dollarVariable_opens hr).takes hc (Cursor.not_atEnd_of_sees hs)

theorem referenceValue_takes (hr : r.AgreesUpTo n r') :
    Takes (n + 1) (referenceValue r) (referenceValue r') :=
  (expect_takes _).bind fun _ => hr.access.keeps.bind fun _ => .pure _

theorem arrayPair_takes (hr : r.AgreesUpTo n r') : Takes n (arrayPair r) (arrayPair r') := by
  have href := (referenceValue_takes hr).mono n.le_succ
  refine fun c hc => .get (.ite (fun hs => ?_) fun _ => .ite (fun _ => ?_) fun _ => ?_)
  · refine (Opens.leaf fun ellipsis => ?_).takesInside hc (Cursor.not_atEnd_of_sees hs)
    exact hr.expression.keeps.bind fun _ => .pure _
  · exact (href.andThen fun _ => .pure _) hc
  · refine hr.expression.andThen (fun first => (eat_keeps .doubleArrow).bind fun o => ?_) hc
    cases o with
    | none => exact .pure _
    | some arrow =>
      refine fun d hd => .get (.ite (fun _ => ?_) fun _ => ?_)
      · exact (href.keeps.bind fun _ => .pure _) hd
      · exact (hr.expression.keeps.bind fun _ => .pure _) hd

theorem arrayCall_opens (hr : r.AgreesUpTo n r') (kind : Kind) (allowEmpty : Bool) :
    Opens n (arrayCall r kind allowEmpty) (arrayCall r' kind allowEmpty) := by
  refine .leaf fun keyword => (leaf_keeps .token).bind fun left => ?_
  refine (separatedList_keeps _ _ (arrayPair_takes hr)).bind fun list => ?_
  exact (expect_takes _).keeps.bind fun right => .pure _

theorem matchArm_takes (hr : r.AgreesUpTo n r') : Takes n (matchArm r) (matchArm r') := by
  refine fun c hc => .get (.ite (fun hs => ?_) fun _ => ?_)
  · have hn := Cursor.not_atEnd_of_seesKeyword (Bool.and_eq_true_iff.mp hs).1
    refine (Opens.leaf fun keyword => ?_).takesInside hc hn
    exact (expect_takes _).keeps.bind fun arrow => hr.expression.keeps.bind fun _ => .pure _
  · refine (commaList_keeps _ hr.expression).bindTakes (fun conditions => ?_) hc
    exact (expect_takes _).andThen fun arrow => hr.expression.keeps.bind fun _ => .pure _

theorem matchExpression_opens (hr : r.AgreesUpTo n r') :
    Opens n (matchExpression r) (matchExpression r') := by
  refine .leaf fun keyword => (expect_takes _).keeps.bind fun left => ?_
  refine hr.expression.keeps.bind fun subject => (expect_takes _).keeps.bind fun right => ?_
  refine (expect_takes _).keeps.bind fun leftBrace => ?_
  refine (commaList_keeps _ (matchArm_takes hr)).bind fun arms => ?_
  exact (expect_takes _).keeps.bind fun rightBrace => .pure _

/-- An operator and an operand extend a tree. -/
theorem joined_offers {p q : Production Tree} (h : Keeps n p q) (kind : Kind) (tree : Tree)
    {c : Cursor} (hc : c.Fits n) (hn : ¬ c.atEnd = true) :
    Agrees (do let op ← token; return some (Tree.node kind [tree, op, ← p]))
      (do let op ← token; return some (Tree.node kind [tree, op, ← q])) c c.Offered :=
  .offers ((Opens.leaf fun _ => h.bind fun _ => .pure _).takesInside hc hn)

theorem classReferenceStep_offers (hr : r.AgreesUpTo n r') (tree : Tree) :
    Offers n (classReferenceStep r tree) (classReferenceStep r' tree) := by
  have hname := (memberName_takes hr).keepsInside
  refine fun c hc => .get (.ite (fun hs => ?_) fun _ => .ite (fun hs => ?_) fun _ =>
    .ite (fun hs => ?_) fun _ => .ite (fun hs => ?_) fun _ => .none)
  all_goals have hn := Cursor.not_atEnd_of_sees hs
  · exact joined_offers hname _ tree hc hn
  · exact joined_offers hname _ tree hc hn
  · exact joined_offers variableName_parses.takes.keeps _ tree hc hn
  · refine .offers ((Opens.leaf fun left => ?_).takesInside hc hn)
    refine hr.expression.keeps.bind fun offset => ?_
    exact (expect_takes _).keeps.bind fun right => .pure _

theorem classReference_takes (hr : r.AgreesUpTo n r') :
    Takes (n + 1) (classReference r) (classReference r') := by
  refine fun c hc => .get (.ite (fun _ => ?_) fun _ => .ite (fun _ => ?_) fun _ => ?_)
  · exact Nested.parenthesised_takes hr hc
  · exact name_parses.takes hc
  have hstep := chain_keeps (classReferenceStep_offers hr)
  refine .ite (fun hs => ?_) fun _ => ?_
  · refine ((dollarVariable_opens hr).takes hc (Cursor.not_atEnd_of_sees hs)).bind
      fun first d hd => ?_
    exact (hstep first (hc.precedes hd)).imp fun _ _ he => hd.trans_leads he
  · exact (variableName_parses.takes.bind hstep) hc

theorem newExpression_opens (hr : r.AgreesUpTo n r') :
    Opens n (newExpression r) (newExpression r') := by
  refine .leaf fun keyword c hc => .get (.ite (fun _ => ?_) fun _ => ?_)
  · exact ((anonymousClass_takes hr).keepsInside.bind fun _ => .pure _) hc
  · refine (classReference_takes hr).keepsInside.bind (fun reference d hd => .get ?_) hc
    refine .ite (fun _ => ?_) fun _ => .pure .refl
    exact ((arguments_takes hr).keepsInside.bind fun _ => .pure _) hd

theorem identifierExpression_opens (hr : r.AgreesUpTo n r') :
    Opens n (identifierExpression r) (identifierExpression r') := by
  refine fun c => .get (.ite (fun _ => ?_) fun _ => .ite (fun _ => ?_) fun _ =>
    .ite (fun _ => ?_) fun _ => .ite (fun _ => ?_) fun _ => .ite (fun _ => ?_) fun _ =>
    .ite (fun _ => ?_) fun _ => .ite (fun _ => ?_) fun _ => .ite (fun _ => ?_) fun _ => ?_)
  · exact Opens.single c
  · exact Opens.single c
  · exact Opens.single c
  · exact arrayCall_opens hr _ _ c
  · exact arrayCall_opens hr _ _ c
  · exact matchExpression_opens hr c
  · exact newExpression_opens hr c
  · exact (closure_takes hr _).opens c
  · exact name_parses.takes.opens c

theorem punctuatorExpression_takes (hr : r.AgreesUpTo n r') :
    Takes (n + 1) (punctuatorExpression r) (punctuatorExpression r') := by
  refine fun c hc => .get (.ite (fun _ => ?_) fun _ => .ite (fun hs => ?_) fun _ =>
    .ite (fun hs => ?_) fun _ => .ite (fun _ => ?_) fun _ => .unexpected)
  · exact Nested.parenthesised_takes hr hc
  · refine (Opens.leaf fun left => ?_).takes hc (Cursor.not_atEnd_of_sees hs)
    refine (separatedList_keeps _ _ (arrayPair_takes hr)).bind fun list => ?_
    exact (expect_takes _).keeps.bind fun right => .pure _
  · exact (dollarVariable_opens hr).takes hc (Cursor.not_atEnd_of_sees hs)
  · exact (attributes_keeps hr).bindTakes (closure_takes hr) hc

theorem primary_takes (hr : r.AgreesUpTo n r') : Takes (n + 1) (primary r) (primary r') := by
  refine fun c hc => .get ?_
  have hn : c.current.kind ≠ .eof → ¬ c.atEnd = true := mt Cursor.atEnd_iff.mp
  cases hk : c.current.kind with
  | variableName | integer | float | singleQuotedString | doubleQuotedString | expandableString
  | heredoc | nowdoc | shellCommand => exact Opens.single.takes hc (hn (by simp [hk]))
  | identifier => exact (identifierExpression_opens hr).takes hc (hn (by simp [hk]))
  | punctuator => exact punctuatorExpression_takes hr hc
  | _ => exact .unexpected

theorem accessStep_offers (hr : r.AgreesUpTo n r') (tree : Tree) :
    Offers n (accessStep r tree) (accessStep r' tree) := by
  have hname := (memberName_takes hr).keepsInside
  refine fun c hc => .get (.ite (fun hs => ?_) fun _ => .ite (fun hs => ?_) fun _ =>
    .ite (fun hs => ?_) fun _ => .ite (fun hs => ?_) fun _ => .ite (fun hs => ?_) fun _ =>
    .ite (fun hs => ?_) fun _ => .ite (fun hs => ?_) fun _ => .none)
  all_goals have hn := Cursor.not_atEnd_of_sees hs
  · refine .offers ((Opens.leaf fun left => ?_).takesInside hc hn)
    refine (optional_keeps _ hr.expression.keeps).bind fun offset => ?_
    exact (expect_takes _).keeps.bind fun right => .pure _
  · exact .offers (((arguments_takes hr).bind fun _ => .pure _).mono n.le_succ hc)
  · exact joined_offers hname _ tree hc hn
  · exact joined_offers hname _ tree hc hn
  · exact joined_offers hname _ tree hc hn
  · exact .offers ((Opens.leaf fun _ => .pure _).takesInside hc hn)
  · exact .offers ((Opens.leaf fun _ => .pure _).takesInside hc hn)

theorem access_takes (hr : r.AgreesUpTo n r') : Takes (n + 1) (access r) (access r') :=
  (primary_takes hr).bind (chain_keeps (accessStep_offers hr))

theorem prefixed_opens (hr : r.AgreesUpTo n r') (kind : Kind) :
    Opens n (prefixed r kind) (prefixed r' kind) :=
  .leaf fun _ => hr.unary.keeps.bind fun _ => .pure _

theorem keywordOperand_opens (hr : r.AgreesUpTo n r') (kind : Kind) :
    Opens n (keywordOperand r kind) (keywordOperand r' kind) :=
  .leaf fun _ => (hr.binary _).keeps.bind fun _ => .pure _

theorem yieldExpression_opens (hr : r.AgreesUpTo n r') :
    Opens n (yieldExpression r) (yieldExpression r') := by
  refine .leaf fun keyword c hc => .get (.ite (fun _ => ?_) fun _ =>
    .ite (fun _ => .pure .refl) fun _ => ?_)
  · exact ((leaf_keeps .token).bind fun _ => (hr.binary _).keeps.bind fun _ => .pure _) hc
  · refine (hr.binary _).keeps.bind (fun first => (eat_keeps .doubleArrow).bind fun o => ?_) hc
    cases o with
    | none => exact .pure _
    | some arrow => exact (hr.binary _).keeps.bind fun value => .pure _

theorem afterAccess_keeps (hr : r.AgreesUpTo n r') (tree : Tree) :
    Keeps n (afterAccess r tree) (afterAccess r' tree) := by
  refine fun c hc => .get (.ite (fun _ => ?_) fun _ => .ite (fun _ => .pure .refl) fun _ =>
    .ite (fun _ => ?_) fun _ => .ite (fun _ => ?_) fun _ => .pure .refl)
  · exact ((leaf_keeps .token).bind fun _ => hr.unary.keeps.bind fun _ => .pure _) hc
  · refine Keeps.bind (leaf_keeps .token) (fun op => (eat_keeps .ampersand).bind fun o => ?_) hc
    cases o with
    | none => exact (hr.binary _).keeps.bind fun _ => .pure _
    | some ampersand => exact (hr.binary _).keeps.bind fun _ => .pure _
  · exact ((leaf_keeps .token).bind fun _ => (hr.binary _).keeps.bind fun _ => .pure _) hc

theorem unary_takes (hr : r.AgreesUpTo n r') : Takes (n + 1) (unary r) (unary r') := by
  refine fun c hc => .get ?_
  split
  · next hk => exact (prefixed_opens hr _).takes hc (prefixKind_spec hk).1
  · next hk => exact (keywordOperand_opens hr _).takes hc (operandKind_spec hk).1
  refine .ite (fun hs => ?_) fun _ => .ite (fun hs => ?_) fun _ => ?_
  · refine (Opens.leaf fun op => ?_).takes hc (Cursor.not_atEnd_of_sees hs)
    exact (hr.binary _).keeps.bind fun _ => .pure _
  · exact (yieldExpression_opens hr).takes hc (Cursor.not_atEnd_of_seesKeyword hs)
  · exact ((access_takes hr).bind (afterAccess_keeps hr)) hc

theorem conditional_opens (hr : r.AgreesUpTo n r') (condition : Tree) (level : Nat) :
    Opens n (conditional r condition level) (conditional r' condition level) := by
  refine .leaf fun query => (optional_keeps _ hr.expression.keeps).bind fun consequent => ?_
  exact (expect_takes _).keeps.bind fun colon => (hr.binary _).keeps.bind fun _ => .pure _

theorem operatorStep_offers (hr : r.AgreesUpTo n r') (minLevel : Nat) (left : Tree) :
    Offers n (operatorStep r minLevel left) (operatorStep r' minLevel left) := by
  refine fun c hc => .get ?_
  split
  · exact .none
  · next kind level hop =>
    have hn := (operator_spec hop).1
    refine .ite (fun _ => .none) fun _ => .ite (fun _ => ?_) fun _ => ?_
    · exact .some ((conditional_opens hr left level).takesInside hc hn)
    · exact joined_offers (hr.binary _).keeps kind left hc hn

theorem binary_takes (hr : r.AgreesUpTo n r') (minLevel : Nat) :
    Takes (n + 1) (binary r minLevel) (binary r' minLevel) :=
  (unary_takes hr).bind (chain_keeps (operatorStep_offers hr minLevel))

theorem expression_takes (hr : r.AgreesUpTo n r') :
    Takes (n + 1) (expression r) (expression r') :=
  binary_takes hr 0

end PhpSyntax.Grammar
