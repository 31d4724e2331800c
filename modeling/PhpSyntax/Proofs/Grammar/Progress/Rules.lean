import PhpSyntax.Proofs.Grammar.Progress.Nesting

namespace PhpSyntax.Grammar

open Production

variable {n : Nat} {r r' : Nested}

def listElements : List (Nested → Production Tree) :=
  [Nested.expression, Nested.access, argument, attributeUse, parameter, fun _ => capturedVariable,
   constantAssignment, initialisedVariable, arrayPair, matchArm, fun _ => typedUseClause]

theorem listElements_take {element : Nested → Production Tree} (h : element ∈ listElements)
    (hr : r.AgreesUpTo n r') : Takes n (element r) (element r') := by
  simp only [listElements, List.mem_cons, List.not_mem_nil, or_false] at h
  obtain rfl | rfl | rfl | rfl | rfl | rfl | rfl | rfl | rfl | rfl | rfl := h
  · exact hr.expression
  · exact hr.access
  · exact argument_takes hr
  · exact (attributeUse_takes hr).mono n.le_succ
  · exact (parameter_takes hr).mono n.le_succ
  · exact capturedVariable_parses.takes
  · exact (constantAssignment_takes hr).mono n.le_succ
  · exact (initialisedVariable_takes hr).mono n.le_succ
  · exact arrayPair_takes hr
  · exact matchArm_takes hr
  · exact typedUseClause_parses.takes

inductive Rule : {α : Type} → (Nested → Production α) → Prop
  | leaf (kind : Kind) : Rule fun _ => leaf kind
  | expect (p : Punctuator) : Rule fun _ => expect p
  | expectKeyword (k : Keyword) : Rule fun _ => expectKeyword k
  | eat (p : Punctuator) : Rule fun _ => eat p
  | eatKeyword (k : Keyword) : Rule fun _ => eatKeyword k
  | variableName : Rule fun _ => variableName
  | identifier : Rule fun _ => identifier
  | name : Rule fun _ => name
  | statementEnd : Rule fun _ => statementEnd
  | separatedList (close : Punctuator) (allowEmpty : Bool) {element : Nested → Production Tree} :
      element ∈ listElements → Rule fun r => separatedList close allowEmpty (element r)
  | nameList : Rule fun _ => nameList
  | caughtTypes : Rule fun _ => delimited .pipe name
  | modifiers (allowed : List Keyword) : Rule fun _ => modifiers allowed
  | statements (stop : Cursor → Bool) : Rule (·.statements stop)
  | block : Rule Nested.block
  | parenthesised : Rule Nested.parenthesised
  | argument : Rule argument
  | arguments : Rule arguments
  | attributeUse : Rule attributeUse
  | attributeGroup : Rule attributeGroup
  | attributes : Rule attributes
  | typeName : Rule fun _ => typeName
  | typeAtom : Rule typeAtom
  | typeDeclaration : Rule typeDeclaration
  | returnTypeClause : Rule returnTypeClause
  | defaultValue : Rule defaultValue
  | parameter : Rule parameter
  | parameterList : Rule parameterList
  | functionDeclaration (attributes : Tree) : Rule (functionDeclaration · attributes)
  | capturedVariable : Rule fun _ => capturedVariable
  | lexicalVariables : Rule fun _ => lexicalVariables
  | arrowFunction (attributes : Tree) (modifier : Option Tree) :
      Rule (arrowFunction · attributes modifier)
  | closure (attributes : Tree) : Rule (closure · attributes)
  | constantAssignment : Rule constantAssignment
  | initialisedVariable : Rule initialisedVariable
  | traitMethodReference : Rule fun _ => traitMethodReference
  | traitAdaptation : Rule fun _ => traitAdaptation
  | useTraitDeclaration : Rule fun _ => useTraitDeclaration
  | enumCase (attributes : Tree) : Rule (enumCase · attributes)
  | classConstant (attributes modifiers : Tree) : Rule (classConstant · attributes modifiers)
  | methodDeclaration (attributes modifiers : Tree) :
      Rule (methodDeclaration · attributes modifiers)
  | propertyDeclaration (attributes modifiers : Tree) :
      Rule (propertyDeclaration · attributes modifiers)
  | classMember : Rule classMember
  | classBody : Rule classBody
  | extendsClause : Rule fun _ => extendsClause
  | implementsClause : Rule fun _ => implementsClause
  | anonymousClass : Rule anonymousClass
  | namespaceStatement : Rule namespaceStatement
  | importType : Rule fun _ => importType
  | useClause (kind : Option Tree) (label : Tree) : Rule fun _ => useClause kind label
  | plainUseClause : Rule fun _ => plainUseClause
  | typedUseClause : Rule fun _ => typedUseClause
  | useStatement : Rule fun _ => useStatement
  | constantDeclaration : Rule constantDeclaration
  | classDeclaration (attributes : Tree) : Rule (classDeclaration · attributes)
  | interfaceDeclaration (attributes : Tree) : Rule (interfaceDeclaration · attributes)
  | traitDeclaration (attributes : Tree) : Rule (traitDeclaration · attributes)
  | enumDeclaration (attributes : Tree) : Rule (enumDeclaration · attributes)
  | declaration (attributes : Tree) : Rule (declaration · attributes)
  | dollarVariable : Rule dollarVariable
  | memberName : Rule memberName
  | referenceValue : Rule referenceValue
  | arrayPair : Rule arrayPair
  | arrayCall (kind : Kind) (allowEmpty : Bool) : Rule (arrayCall · kind allowEmpty)
  | matchArm : Rule matchArm
  | matchExpression : Rule matchExpression
  | classReferenceStep (tree : Tree) : Rule (classReferenceStep · tree)
  | classReference : Rule classReference
  | newExpression : Rule newExpression
  | identifierExpression : Rule identifierExpression
  | punctuatorExpression : Rule punctuatorExpression
  | primary : Rule primary
  | accessStep (tree : Tree) : Rule (accessStep · tree)
  | access : Rule access
  | prefixed (kind : Kind) : Rule (prefixed · kind)
  | keywordOperand (kind : Kind) : Rule (keywordOperand · kind)
  | yieldExpression : Rule yieldExpression
  | afterAccess (tree : Tree) : Rule (afterAccess · tree)
  | unary : Rule unary
  | conditional (condition : Tree) (level : Nat) : Rule (conditional · condition level)
  | operatorStep (minLevel : Nat) (left : Tree) : Rule (operatorStep · minLevel left)
  | binary (minLevel : Nat) : Rule (binary · minLevel)
  | expression : Rule expression
  | alternativeBody (ends : List Keyword) : Rule (alternativeBody · ends)
  | alternativeElseif : Rule alternativeElseif
  | alternativeElse : Rule alternativeElse
  | alternativeIf (keyword condition colon : Tree) :
      Rule (alternativeIf · keyword condition colon)
  | elseif : Rule elseif
  | elseClause : Rule elseClause
  | ifStatement : Rule ifStatement
  | whileStatement : Rule whileStatement
  | doWhileStatement : Rule doWhileStatement
  | forStatement : Rule forStatement
  | foreachTarget : Rule foreachTarget
  | foreachTargets : Rule foreachTargets
  | foreachStatement : Rule foreachStatement
  | caseSeparator : Rule fun _ => caseSeparator
  | switchClause (stop : Cursor → Bool) : Rule (switchClause · stop)
  | switchClauses (stop : Cursor → Bool) : Rule (switchClauses · stop)
  | switchStatement : Rule switchStatement
  | catchBlock : Rule catchBlock
  | finallyClause : Rule finallyClause
  | tryStatement : Rule tryStatement
  | jumpStatement (kind : Kind) : Rule (jumpStatement · kind)
  | listStatement (kind : Kind) {item : Nested → Production Tree} :
      item ∈ listElements → Rule fun r => listStatement kind (item r)
  | unsetStatement : Rule unsetStatement
  | throwStatement : Rule throwStatement
  | gotoStatement : Rule fun _ => gotoStatement
  | labelStatement : Rule fun _ => labelStatement
  | declareStatement : Rule declareStatement
  | keywordStatement : Rule keywordStatement
  | callStep (tree : Tree) : Rule (callStep · tree)
  | attributedStatement : Rule attributedStatement
  | expressionStatement : Rule expressionStatement
  | plainStatement : Rule plainStatement
  | statement : Rule statement
  | compilationUnit : Rule fun _ => compilationUnit

theorem Rule.keeps {α : Type} {P : Nested → Production α} (h : Rule P)
    (hr : r.AgreesUpTo n r') : Keeps n (P r) (P r') := by
  cases h with
  | leaf kind => exact leaf_keeps kind
  | expect p => exact (expect_takes p).keeps
  | expectKeyword k => exact (expectKeyword_takes k).keeps
  | eat p => exact eat_keeps p
  | eatKeyword k => exact eatKeyword_keeps k
  | variableName => exact variableName_parses.takes.keeps
  | identifier => exact identifier_parses.takes.keeps
  | name => exact name_parses.takes.keeps
  | statementEnd => exact statementEnd_takes.keeps
  | separatedList _ _ h => exact separatedList_keeps _ _ (listElements_take h hr)
  | nameList => exact nameList_parses.takes.keeps
  | caughtTypes => exact (delimited_parses .pipe name_parses (by simp)).takes.keeps
  | modifiers allowed => exact modifiers_keeps allowed
  | statements stop => exact Nested.statements_keeps hr stop
  | block => exact (Nested.block_takes hr).keepsInside
  | parenthesised => exact (Nested.parenthesised_takes hr).keepsInside
  | argument => exact (argument_takes hr).keeps
  | arguments => exact (arguments_takes hr).keepsInside
  | attributeUse => exact (attributeUse_takes hr).keepsInside
  | attributeGroup => exact (attributeGroup_opens hr).keeps
  | attributes => exact (attributes_keeps hr).mono n.le_succ
  | typeName => exact typeName_parses.takes.keeps
  | typeAtom => exact (typeAtom_takes hr).keepsInside
  | typeDeclaration => exact (typeDeclaration_takes hr).keepsInside
  | returnTypeClause => exact returnTypeClause_keeps hr
  | defaultValue => exact defaultValue_keeps hr
  | parameter => exact (parameter_takes hr).keepsInside
  | parameterList => exact (parameterList_takes hr).keepsInside
  | functionDeclaration attributes => exact (functionDeclaration_takes hr attributes).keepsInside
  | capturedVariable => exact capturedVariable_parses.takes.keeps
  | lexicalVariables => exact lexicalVariables_opens.keeps
  | arrowFunction _ _ => exact (arrowFunction_opens hr _ _).keeps
  | closure attributes => exact (closure_takes hr attributes).keepsInside
  | constantAssignment => exact (constantAssignment_takes hr).keepsInside
  | initialisedVariable => exact (initialisedVariable_takes hr).keepsInside
  | traitMethodReference => exact traitMethodReference_parses.takes.keeps
  | traitAdaptation => exact traitAdaptation_parses.takes.keeps
  | useTraitDeclaration => exact useTraitDeclaration_opens.keeps
  | enumCase attributes => exact (enumCase_opens hr attributes).keeps
  | classConstant _ _ => exact (classConstant_opens hr _ _).keeps
  | methodDeclaration _ _ => exact (methodDeclaration_opens hr _ _).keeps
  | propertyDeclaration _ _ => exact (propertyDeclaration_takes hr _ _).keepsInside
  | classMember => exact (classMember_takes hr).keepsInside
  | classBody => exact (classBody_takes hr).keepsInside
  | extendsClause => exact extendsClause_keeps
  | implementsClause => exact implementsClause_keeps
  | anonymousClass => exact (anonymousClass_takes hr).keepsInside
  | namespaceStatement => exact (namespaceStatement_opens hr).keeps
  | importType => exact eatIf_keeps _
  | useClause kind label => exact useClause_keeps kind label
  | plainUseClause => exact plainUseClause_parses.takes.keeps
  | typedUseClause => exact typedUseClause_parses.takes.keeps
  | useStatement => exact useStatement_opens.keeps
  | constantDeclaration => exact (constantDeclaration_opens hr).keeps
  | classDeclaration attributes => exact (classDeclaration_takes hr attributes).keepsInside
  | interfaceDeclaration attributes => exact (interfaceDeclaration_opens hr attributes).keeps
  | traitDeclaration attributes => exact (traitDeclaration_opens hr attributes).keeps
  | enumDeclaration attributes => exact (enumDeclaration_opens hr attributes).keeps
  | declaration attributes => exact (declaration_offers hr attributes).keeps.mono n.le_succ
  | dollarVariable => exact (dollarVariable_opens hr).keeps
  | memberName => exact (memberName_takes hr).keepsInside
  | referenceValue => exact (referenceValue_takes hr).keepsInside
  | arrayPair => exact (arrayPair_takes hr).keeps
  | arrayCall _ _ => exact (arrayCall_opens hr _ _).keeps
  | matchArm => exact (matchArm_takes hr).keeps
  | matchExpression => exact (matchExpression_opens hr).keeps
  | classReferenceStep tree => exact (classReferenceStep_offers hr tree).keeps
  | classReference => exact (classReference_takes hr).keepsInside
  | newExpression => exact (newExpression_opens hr).keeps
  | identifierExpression => exact (identifierExpression_opens hr).keeps
  | punctuatorExpression => exact (punctuatorExpression_takes hr).keepsInside
  | primary => exact (primary_takes hr).keepsInside
  | accessStep tree => exact (accessStep_offers hr tree).keeps
  | access => exact (access_takes hr).keepsInside
  | prefixed kind => exact (prefixed_opens hr kind).keeps
  | keywordOperand kind => exact (keywordOperand_opens hr kind).keeps
  | yieldExpression => exact (yieldExpression_opens hr).keeps
  | afterAccess tree => exact afterAccess_keeps hr tree
  | unary => exact (unary_takes hr).keepsInside
  | conditional _ _ => exact (conditional_opens hr _ _).keeps
  | operatorStep _ _ => exact (operatorStep_offers hr _ _).keeps
  | binary minLevel => exact (binary_takes hr minLevel).keepsInside
  | expression => exact (expression_takes hr).keepsInside
  | alternativeBody ends => exact alternativeBody_keeps hr ends
  | alternativeElseif => exact (alternativeElseif_opens hr).keeps
  | alternativeElse => exact (alternativeElse_opens hr).keeps
  | alternativeIf _ _ _ => exact alternativeIf_keeps hr _ _ _
  | elseif => exact (elseif_opens hr).keeps
  | elseClause => exact (elseClause_opens hr).keeps
  | ifStatement => exact (ifStatement_opens hr).keeps
  | whileStatement => exact (whileStatement_opens hr).keeps
  | doWhileStatement => exact (doWhileStatement_opens hr).keeps
  | forStatement => exact (forStatement_opens hr).keeps
  | foreachTarget => exact (foreachTarget_takes hr).keeps
  | foreachTargets => exact (foreachTargets_takes hr).keeps
  | foreachStatement => exact (foreachStatement_opens hr).keeps
  | caseSeparator => exact caseSeparator_takes.keeps
  | switchClause stop => exact (switchClause_takes hr stop).keepsInside
  | switchClauses stop => exact switchClauses_keeps hr stop
  | switchStatement => exact (switchStatement_opens hr).keeps
  | catchBlock => exact (catchBlock_opens hr).keeps
  | finallyClause => exact (finallyClause_opens hr).keeps
  | tryStatement => exact (tryStatement_opens hr).keeps
  | jumpStatement kind => exact (jumpStatement_opens hr kind).keeps
  | listStatement kind h => exact (listStatement_opens (listElements_take h hr) kind).keeps
  | unsetStatement => exact (unsetStatement_opens hr).keeps
  | throwStatement => exact (throwStatement_opens hr).keeps
  | gotoStatement => exact gotoStatement_opens.keeps
  | labelStatement => exact labelStatement_opens.keeps
  | declareStatement => exact (declareStatement_opens hr).keeps
  | keywordStatement => exact keywordStatement_keeps hr
  | callStep tree => exact (callStep_offers hr tree).keeps
  | attributedStatement => exact (attributedStatement_takes hr).keepsInside
  | expressionStatement => exact (expressionStatement_takes hr).keepsInside
  | plainStatement => exact (plainStatement_takes hr).keepsInside
  | statement => exact (statement_takes hr).keepsInside
  | compilationUnit => exact compilationUnit_keeps

/-- The productions that read a token wherever they succeed, with expressions from one level on. -/
def consumingRules (minLevel : Nat) : List (Nested → Production Tree) :=
  [statement, expression, (binary · minLevel), unary, access, typeDeclaration, classMember,
   parameter, matchArm, argument, arrayPair, fun _ => traitAdaptation]

theorem consumingRules_take {minLevel : Nat} {P : Nested → Production Tree}
    (h : P ∈ consumingRules minLevel) (hr : r.AgreesUpTo n r') : Takes n (P r) (P r') := by
  simp only [consumingRules, List.mem_cons, List.not_mem_nil, or_false] at h
  obtain rfl | rfl | rfl | rfl | rfl | rfl | rfl | rfl | rfl | rfl | rfl | rfl := h
  · exact (statement_takes hr).mono n.le_succ
  · exact (expression_takes hr).mono n.le_succ
  · exact (binary_takes hr minLevel).mono n.le_succ
  · exact (unary_takes hr).mono n.le_succ
  · exact (access_takes hr).mono n.le_succ
  · exact (typeDeclaration_takes hr).mono n.le_succ
  · exact (classMember_takes hr).mono n.le_succ
  · exact (parameter_takes hr).mono n.le_succ
  · exact matchArm_takes hr
  · exact argument_takes hr
  · exact arrayPair_takes hr
  · exact traitAdaptation_parses.takes

inductive Loop (r : Nested) : {α : Type} → (Nat → Production α) → Prop
  | file : Loop r (gatherUpTo (!·.atEnd) do return [some (← r.statement)])
  | statements (stop : Cursor → Bool) :
      Loop r (gatherUpTo (fun c => !stop c && !c.atEnd) do return [some (← r.statement)])
  | list (close : Punctuator) (allowEmpty : Bool) {element : Nested → Production Tree} :
      element ∈ listElements → Loop r (commaSlots close allowEmpty (element r))
  | names : Loop r (gatherUpTo (·.sees .comma) do return [some (← token), some (← name)])
  | caught : Loop r (gatherUpTo (·.sees .pipe) do return [some (← token), some (← name)])
  | imports :
      Loop r (gatherUpTo (·.sees .comma) do return [some (← token), some (← plainUseClause)])
  | union : Loop r (gatherUpTo (·.sees .pipe) do return [some (← token), some (← r.typeAtom)])
  | intersection :
      Loop r (gatherUpTo (·.seesIntersection) do return [some (← token), some (← r.typeAtom)])
  | group : Loop r (gatherUpTo (·.sees .ampersand) do return [some (← token), some (← r.typeAtom)])
  | modifiers (allowed : List Keyword) :
      Loop r (gatherUpTo (·.seesAnyKeyword allowed) do return [some (← token)])
  | attributes : Loop r (gatherUpTo (·.sees .attributeOpen) do return [some (← attributeGroup r)])
  | members : Loop r (gatherUpTo (fun c => !c.sees .rightCurlyBrace && !c.atEnd)
      do return [some (← classMember r)])
  | adaptations : Loop r (gatherUpTo (fun c => !c.sees .rightCurlyBrace && !c.atEnd)
      do return [some (← traitAdaptation)])
  | elseifs : Loop r (gatherUpTo (·.seesKeyword .kwElseif) do return [some (← elseif r)])
  | alternativeElseifs :
      Loop r (gatherUpTo (·.seesKeyword .kwElseif) do return [some (← alternativeElseif r)])
  | clauses (stop : Cursor → Bool) :
      Loop r (gatherUpTo (fun c => !stop c && !c.atEnd) do return [some (← switchClause r stop)])
  | catches : Loop r (gatherUpTo (·.seesKeyword .kwCatch) do return [some (← catchBlock r)])
  | accesses (tree : Tree) : Loop r (chainUpTo (accessStep r) · tree)
  | classAccesses (tree : Tree) : Loop r (chainUpTo (classReferenceStep r) · tree)
  | operators (minLevel : Nat) (tree : Tree) : Loop r (chainUpTo (operatorStep r minLevel) · tree)
  | calls (tree : Tree) : Loop r (chainUpTo (callStep r) · tree)

/-- No loop is cut off by a bound on its rounds that is at least the number of tokens. -/
theorem Loop.settles {α : Type} {body : Nat → Production α} (h : Loop r body)
    (hr : r.AgreesUpTo n r) {rounds rounds' : Nat} (hle : n ≤ rounds) (hle' : n ≤ rounds') :
    Keeps n (body rounds) (body rounds') := by
  have sees : ∀ {p : Punctuator} (c : Cursor), c.sees p = true → ¬ c.atEnd = true :=
    fun _ => Cursor.not_atEnd_of_sees
  have clauses : ∀ {p : Production Tree} {k : Keyword}, Opens n p p →
      Keeps n (gatherUpTo (·.seesKeyword k) (do return [some (← p)]) rounds)
        (gatherUpTo (·.seesKeyword k) (do return [some (← p)]) rounds') :=
    fun hp => treesUpTo_keeps (fun c hc hm =>
      hp.takesInside hc (Cursor.not_atEnd_of_seesKeyword hm)) hle hle'
  cases h with
  | file => exact treesUpTo_keeps (fun c hc _ => hr.statement hc) hle hle'
  | statements stop => exact treesUpTo_keeps (fun c hc _ => hr.statement hc) hle hle'
  | list close allowEmpty h =>
    exact commaSlots_keeps close allowEmpty (listElements_take h hr) hle hle'
  | names => exact gatherUpTo_keeps (pair_agrees sees name_parses.takes.keeps) hle hle'
  | caught => exact gatherUpTo_keeps (pair_agrees sees name_parses.takes.keeps) hle hle'
  | imports => exact gatherUpTo_keeps (pair_agrees sees plainUseClause_parses.takes.keeps) hle hle'
  | union => exact gatherUpTo_keeps (pair_agrees sees hr.typeAtom.keeps) hle hle'
  | intersection =>
    exact gatherUpTo_keeps (pair_agrees (fun _ => Cursor.not_atEnd_of_seesIntersection)
      hr.typeAtom.keeps) hle hle'
  | group => exact gatherUpTo_keeps (pair_agrees sees hr.typeAtom.keeps) hle hle'
  | modifiers allowed =>
    exact treesUpTo_keeps (fun c hc hm => Opens.single.takesInside hc
      (Cursor.not_atEnd_of_seesAnyKeyword hm)) hle hle'
  | attributes =>
    exact treesUpTo_keeps (fun c hc hm => (attributeGroup_opens hr).takesInside hc
      (Cursor.not_atEnd_of_sees hm)) hle hle'
  | members =>
    exact treesUpTo_keeps (fun c hc _ => (classMember_takes hr).mono n.le_succ hc) hle hle'
  | adaptations => exact treesUpTo_keeps (fun c hc _ => traitAdaptation_parses.takes hc) hle hle'
  | elseifs => exact clauses (elseif_opens hr)
  | alternativeElseifs => exact clauses (alternativeElseif_opens hr)
  | clauses stop =>
    exact treesUpTo_keeps (fun c hc _ => (switchClause_takes hr stop).mono n.le_succ hc) hle hle'
  | catches => exact clauses (catchBlock_opens hr)
  | accesses tree => exact chainUpTo_keeps (accessStep_offers hr) hle hle' tree
  | classAccesses tree => exact chainUpTo_keeps (classReferenceStep_offers hr) hle hle' tree
  | operators minLevel tree =>
    exact chainUpTo_keeps (operatorStep_offers hr minLevel) hle hle' tree
  | calls tree => exact chainUpTo_keeps (callStep_offers hr) hle hle' tree

/-- Looking ahead over the modifiers of a class stops before the end of the file, at the first
token that is none. -/
theorem classModifierCount_spec {c : Cursor} (hc : c.Ends) :
    c.classModifierCount < c.remaining ∧
      (c.peek c.classModifierCount).isKeywordIn classModifiers = false ∧
      ∀ i < c.classModifierCount, (c.peek i).isKeywordIn classModifiers = true := by
  have hpeek : ∀ {i : Nat} (h : i < c.stream.length), c.peek i = c.stream[i] := by
    intro i h
    cases i with
    | zero => rfl
    | succ i =>
      have hi : i < c.ahead.length := Nat.lt_of_succ_lt_succ h
      simp [Cursor.peek, Cursor.stream, hi]
  obtain ⟨t, ht, hk⟩ := hc
  have hcount : c.classModifierCount =
      c.stream.findIdx fun t => !t.isKeywordIn classModifiers := by
    have hle : (c.stream.findIdx fun t => !t.isKeywordIn classModifiers) ≤ c.stream.length :=
      List.findIdx_le_length
    rw [Cursor.classModifierCount, ← Cursor.stream, List.takeWhile_eq_take_findIdx_not,
      List.length_take, Nat.min_eq_left hle]
  have hnone : (!t.isKeywordIn classModifiers) = true := by
    simp [Token.isKeywordIn, Token.isKeyword, hk]
  have hlt : c.classModifierCount < c.stream.length :=
    hcount ▸ List.findIdx_lt_length_of_exists ⟨t, ht, hnone⟩
  refine ⟨hlt, ?_, fun i hi => ?_⟩
  · rw [hpeek hlt]
    simp only [hcount] at hlt ⊢
    simpa only [Bool.not_eq_true'] using List.findIdx_getElem (w := hlt)
  · rw [hpeek (Nat.lt_trans hi hlt)]
    rw [hcount] at hi
    simpa only [Bool.not_eq_false'] using List.not_of_lt_findIdx hi

end PhpSyntax.Grammar
