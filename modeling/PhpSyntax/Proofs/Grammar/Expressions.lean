import PhpSyntax.Grammar.Operator
import PhpSyntax.Proofs.Grammar.Classes

namespace PhpSyntax.Grammar

open Production

variable {r : Nested} {c c' : Cursor} {us : List Tree}

theorem dollarVariable_parsed (hr : r.Parses) (h : Reads c us c') (hc : ¬ c'.atEnd = true) :
    (dollarVariable r).Ensures c' (Parsed c us) := by
  refine (token_took h hc).bind fun dollar c₁ h₁ => .get ?_
  split
  · next hb =>
    refine (token_took h₁.reads (Cursor.not_atEnd_of_sees hb)).bind fun left c₂ h₂ => ?_
    refine (hr.expression h₂.reads).bind fun inner c₃ h₃ => ?_
    refine (expect_took _ h₃.reads).bind fun right c₄ h₄ => ?_
    exact .pure (.plain (by simpa using h₄.reads) (by simp [h₁.consumed]) rfl)
  split
  · next hd =>
    refine (hr.dollarVariable h₁.reads (Cursor.not_atEnd_of_sees hd)).bind fun inner c₂ h₂ => ?_
    exact .pure (.plain (by simpa using h₂.reads) (by simp [h₁.consumed]) rfl)
  · refine (variableName_parses h₁.reads).bind fun inner c₂ h₂ => ?_
    exact .pure (.plain (by simpa using h₂.reads) (by simp [h₁.consumed]) rfl)

theorem memberName_parses (hr : r.Parses) : (memberName r).Parses := by
  intro c us c' h
  refine .get ?_
  split
  · next hk => exact leaf_parsed h (Cursor.not_atEnd_of_seesKind hk nofun) hk nofun
  split
  · next hk => exact leaf_parsed h (Cursor.not_atEnd_of_seesKind hk nofun) hk nofun
  split
  · next hb =>
    refine (token_took h (Cursor.not_atEnd_of_sees hb)).bind fun left c₁ h₁ => ?_
    refine (hr.expression h₁.reads).bind fun inner c₂ h₂ => ?_
    refine (expect_took _ h₂.reads).bind fun right c₃ h₃ => ?_
    exact .pure (.plain (by simpa using h₃.reads) (by simp [h₁.consumed]) rfl)
  split
  · next hd => exact dollarVariable_parsed hr h (Cursor.not_atEnd_of_sees hd)
  · exact .expected

theorem referenceValue_parses (hr : r.Parses) : (referenceValue r).Parses := by
  intro c us c' h
  refine (expect_took _ h).bind fun ampersand c₁ h₁ => ?_
  refine (hr.access h₁.reads).bind fun target c₂ h₂ => ?_
  exact .pure (.plain (by simpa using h₂.reads) (by simp [h₁.consumed]) rfl)

theorem arrayPair_parses (hr : r.Parses) : (arrayPair r).Parses := by
  intro c us c' h
  refine .get ?_
  split
  · next he =>
    refine (token_took h (Cursor.not_atEnd_of_sees he)).bind fun ellipsis c₁ h₁ => ?_
    refine (hr.expression h₁.reads).bind fun value c₂ h₂ => ?_
    have h₃ : Parsed c us (.node .spreadArgument [ellipsis, value]) c₂ :=
      .plain (by simpa using h₂.reads) (by simp [h₁.consumed]) rfl
    exact .pure (.plain (by simpa using h₃.reads) (by simpa using h₃.consumed) rfl)
  split
  · refine (referenceValue_parses hr h).bind fun value c₁ h₁ => ?_
    exact .pure (.plain (by simpa using h₁.reads) (by simp [h₁.consumed]) rfl)
  refine (hr.expression h).bind fun first c₁ h₁ => ?_
  refine (eat_reads .doubleArrow h₁.reads).bind fun o c₂ h₂ => ?_
  cases o with
  | none => exact .pure (.plain (by simpa using h₂) (by simp [h₁.consumed]) rfl)
  | some arrow =>
    refine .get ?_
    split
    · refine (referenceValue_parses hr h₂).bind fun value c₃ h₃ => ?_
      exact .pure (.plain (by simpa using h₃.reads) (by simp [h₁.consumed]) rfl)
    · refine (hr.expression h₂).bind fun value c₃ h₃ => ?_
      exact .pure (.plain (by simpa using h₃.reads) (by simp [h₁.consumed]) rfl)

/-- The word and its parenthesis are read without a test, so both have to stand there. -/
theorem arrayCall_parsed (hr : r.Parses) {kind : Kind} (allowEmpty : Bool)
    (hk : ∀ a b d e : Option Tree, isPlainNode kind [a, b, d, e] = true) (h : Reads c us c')
    (hc : ¬ c'.atEnd = true) (hp : (c'.peek 1).isPunctuator .leftParenthesis = true) :
    (arrayCall r kind allowEmpty).Ensures c' (Parsed c us) := by
  rw [Cursor.peek_one hc] at hp
  refine Ensures.leaf ?_
  refine (token_took (h.token hc) (Cursor.not_atEnd_of_sees hp)).bind fun left c₂ h₂ => ?_
  refine (separatedList_reads _ _ (arrayPair_parses hr) h₂.reads).bind fun list c₃ h₃ => ?_
  refine (expect_took _ h₃).bind fun right c₄ h₄ => ?_
  exact .pure (.plain (by simpa using h₄.reads) (by simp) (hk _ _ _ _))

theorem matchArm_parses (hr : r.Parses) : (matchArm r).Parses := by
  intro c us c' h
  refine .get ?_
  split
  · next hk =>
    have hn := Cursor.not_atEnd_of_seesKeyword (Bool.and_eq_true_iff.mp hk).1
    refine (token_took h hn).bind fun keyword c₁ h₁ => ?_
    refine (expect_took _ h₁.reads).bind fun arrow c₂ h₂ => ?_
    refine (hr.expression h₂.reads).bind fun value c₃ h₃ => ?_
    exact .pure (.plain (by simpa using h₃.reads) (by simp [h₁.consumed]) rfl)
  · refine (commaList_reads _ hr.expression h).bind fun conditions c₁ h₁ => ?_
    refine (expect_took _ h₁).bind fun arrow c₂ h₂ => ?_
    refine (hr.expression h₂.reads).bind fun value c₃ h₃ => ?_
    exact .pure (.plain (by simpa using h₃.reads) (by simp [h₂.consumed]) rfl)

theorem matchExpression_parsed (hr : r.Parses) (h : Reads c us c') (hc : ¬ c'.atEnd = true) :
    (matchExpression r).Ensures c' (Parsed c us) := by
  refine (token_took h hc).bind fun keyword c₁ h₁ => ?_
  refine (expect_took _ h₁.reads).bind fun left c₂ h₂ => ?_
  refine (hr.expression h₂.reads).bind fun subject c₃ h₃ => ?_
  refine (expect_took _ h₃.reads).bind fun right c₄ h₄ => ?_
  refine (expect_took _ h₄.reads).bind fun leftBrace c₅ h₅ => ?_
  refine (commaList_reads _ (matchArm_parses hr) h₅.reads).bind fun arms c₆ h₆ => ?_
  refine (expect_took _ h₆).bind fun rightBrace c₇ h₇ => ?_
  exact .pure (.plain (by simpa using h₇.reads) (by simp [h₁.consumed]) rfl)

/-- A token after a tree, and another tree after the token, make a larger tree. -/
theorem joined_parsed {kind : Kind} {tree : Tree} {right : Production Tree}
    (hk : ∀ a b d : Option Tree, isPlainNode kind [a, b, d] = true) (h : Parsed c us tree c')
    (hc : ¬ c'.atEnd = true) (hr : right.Parses) :
    (do
      let op ← token
      return some (Tree.node kind [tree, op, ← right]) : Production (Option Tree)).Ensures c'
        fun o d => Parsed c us (o.getD tree) d := by
  refine (token_took h.reads hc).bind fun op c₁ h₁ => ?_
  refine (hr h₁.reads).bind fun operand c₂ h₂ => ?_
  exact .pure (.plain (by simpa using h₂.reads) (by simp [h₁.consumed]) (hk _ _ _))

theorem classReferenceStep_parsed (hr : r.Parses) {tree : Tree} (h : Parsed c us tree c') :
    (classReferenceStep r tree).Ensures c' fun o d => Parsed c us (o.getD tree) d := by
  refine .get ?_
  split
  · next hc =>
    exact joined_parsed (fun _ _ _ => rfl) h (Cursor.not_atEnd_of_sees hc) (memberName_parses hr)
  split
  · next hc =>
    exact joined_parsed (fun _ _ _ => rfl) h (Cursor.not_atEnd_of_sees hc) (memberName_parses hr)
  split
  · next hc =>
    exact joined_parsed (fun _ _ _ => rfl) h (Cursor.not_atEnd_of_sees hc) variableName_parses
  split
  · next hc =>
    refine (token_took h.reads (Cursor.not_atEnd_of_sees hc)).bind fun left c₁ h₁ => ?_
    refine (hr.expression h₁.reads).bind fun offset c₂ h₂ => ?_
    refine (expect_took _ h₂.reads).bind fun right c₃ h₃ => ?_
    exact .pure (.plain (by simpa using h₃.reads) (by simp [h₁.consumed]) rfl)
  · exact .pure h

theorem classReference_parses (hr : r.Parses) : (classReference r).Parses := by
  intro c us c' h
  refine .get ?_
  split
  · exact Nested.parenthesised_parses hr h
  split
  · exact name_parses h
  split
  · next hd =>
    refine (dollarVariable_parsed hr h (Cursor.not_atEnd_of_sees hd)).bind fun first c₁ h₁ => ?_
    exact chain_parsed (fun _ _ => classReferenceStep_parsed hr) h₁
  · refine (variableName_parses h).bind fun first c₁ h₁ => ?_
    exact chain_parsed (fun _ _ => classReferenceStep_parsed hr) h₁

theorem newExpression_parsed (hr : r.Parses) (h : Reads c us c') (hc : ¬ c'.atEnd = true) :
    (newExpression r).Ensures c' (Parsed c us) := by
  refine (token_took h hc).bind fun keyword c₁ h₁ => .get ?_
  split
  · refine (anonymousClass_parses hr h₁.reads).bind fun body c₂ h₂ => ?_
    exact .pure (.plain (by simpa using h₂.reads) (by simp [h₁.consumed]) rfl)
  refine (classReference_parses hr h₁.reads).bind fun reference c₂ h₂ => .get ?_
  split
  · refine (arguments_parses hr h₂.reads).bind fun arguments c₃ h₃ => ?_
    have h₄ : Parsed c (us ++ [keyword]) (.node .functionCall [reference, arguments]) c₃ :=
      .plain (by simpa using h₃.reads) (by simp [h₂.consumed]) rfl
    exact .pure (.plain (by simpa using h₄.reads) (by simp [h₁.consumed]) rfl)
  · exact .pure (.plain (by simpa using h₂.reads) (by simp [h₁.consumed]) rfl)

theorem identifierExpression_parsed (hr : r.Parses) (h : Reads c us c')
    (hk : c'.current.kind = .identifier) :
    (identifierExpression r).Ensures c' (Parsed c us) := by
  have hc : ¬ c'.atEnd = true := by simp [Cursor.atEnd_iff, hk]
  have hid : decide (c'.current.kind = .identifier) = true := by simp [hk]
  refine .get ?_
  dsimp only
  split
  · exact leaf_parsed h hc hid nofun
  split
  · exact leaf_parsed h hc hid nofun
  split
  · exact leaf_parsed h hc hid nofun
  split
  · next hp =>
    exact arrayCall_parsed hr _ (fun _ _ _ _ => rfl) h hc (Bool.and_eq_true_iff.mp hp).2
  split
  · next hp =>
    exact arrayCall_parsed hr _ (fun _ _ _ _ => rfl) h hc (Bool.and_eq_true_iff.mp hp).2
  split
  · exact matchExpression_parsed hr h hc
  split
  · exact newExpression_parsed hr h hc
  split
  · exact closure_parsed hr (Reads.list (by simpa using h))
  · exact name_parses h

theorem punctuatorExpression_parses (hr : r.Parses) : (punctuatorExpression r).Parses := by
  intro c us c' h
  refine .get ?_
  split
  · exact Nested.parenthesised_parses hr h
  split
  · next hc =>
    refine (token_took h (Cursor.not_atEnd_of_sees hc)).bind fun left c₁ h₁ => ?_
    refine (separatedList_reads _ _ (arrayPair_parses hr) h₁.reads).bind fun list c₂ h₂ => ?_
    refine (expect_took _ h₂).bind fun right c₃ h₃ => ?_
    exact .pure (.plain (by simpa using h₃.reads) (by simp [h₁.consumed]) rfl)
  split
  · next hd => exact dollarVariable_parsed hr h (Cursor.not_atEnd_of_sees hd)
  split
  · refine (attributes_reads hr h).bind fun attributes c₁ h₁ => ?_
    exact closure_parsed hr h₁
  · exact .unexpected

theorem primary_parses (hr : r.Parses) : (primary r).Parses := by
  intro c us c' h
  have literal : ∀ {k : Kind}, c'.current.kind ≠ .eof → k.holds c'.current = true →
      k ≠ .token → (leaf k).Ensures c' (Parsed c us) :=
    fun hc => leaf_parsed h (mt Cursor.atEnd_iff.mp hc)
  refine .get ?_
  split
  · next hk => exact literal (by simp [hk]) (by simp [Kind.holds, hk]) nofun
  · next hk => exact literal (by simp [hk]) (by simp [Kind.holds, hk]) nofun
  · next hk => exact literal (by simp [hk]) (by simp [Kind.holds, hk]) nofun
  · next hk => exact literal (by simp [hk]) (by simp [Kind.holds, hk]) nofun
  · next hk => exact literal (by simp [hk]) (by simp [Kind.holds, hk]) nofun
  · next hk => exact literal (by simp [hk]) (by simp [Kind.holds, hk]) nofun
  · next hk => exact literal (by simp [hk]) (by simp [Kind.holds, hk]) nofun
  · next hk => exact literal (by simp [hk]) (by simp [Kind.holds, hk]) nofun
  · next hk => exact literal (by simp [hk]) (by simp [Kind.holds, hk]) nofun
  · next hk => exact identifierExpression_parsed hr h hk
  · exact punctuatorExpression_parses hr h
  · exact .unexpected

theorem accessStep_parsed (hr : r.Parses) {tree : Tree} (h : Parsed c us tree c') :
    (accessStep r tree).Ensures c' fun o d => Parsed c us (o.getD tree) d := by
  refine .get ?_
  split
  · next hc =>
    refine (token_took h.reads (Cursor.not_atEnd_of_sees hc)).bind fun left c₁ h₁ => ?_
    refine (optional_reads h₁.reads fun _ => hr.expression h₁.reads).bind fun offset c₂ h₂ => ?_
    refine (expect_took _ h₂).bind fun right c₃ h₃ => ?_
    exact .pure (.plain (by simpa [filled_cons] using h₃.reads) (by simp [h₁.consumed]) rfl)
  split
  · refine (arguments_parses hr h.reads).bind fun arguments c₁ h₁ => ?_
    exact .pure (.plain (by simpa using h₁.reads) (by simp [h₁.consumed]) rfl)
  split
  · next hc =>
    exact joined_parsed (fun _ _ _ => rfl) h (Cursor.not_atEnd_of_sees hc) (memberName_parses hr)
  split
  · next hc =>
    exact joined_parsed (fun _ _ _ => rfl) h (Cursor.not_atEnd_of_sees hc) (memberName_parses hr)
  split
  · next hc =>
    exact joined_parsed (fun _ _ _ => rfl) h (Cursor.not_atEnd_of_sees hc) (memberName_parses hr)
  split
  · next hc =>
    refine (token_took h.reads (Cursor.not_atEnd_of_sees hc)).bind fun op c₁ h₁ => ?_
    exact .pure (.plain (by simpa using h₁.reads) (by simp [h₁.consumed]) rfl)
  split
  · next hc =>
    refine (token_took h.reads (Cursor.not_atEnd_of_sees hc)).bind fun op c₁ h₁ => ?_
    exact .pure (.plain (by simpa using h₁.reads) (by simp [h₁.consumed]) rfl)
  · exact .pure h

theorem access_parses (hr : r.Parses) : (access r).Parses := by
  intro c us c' h
  refine (primary_parses hr h).bind fun tree c₁ h₁ => ?_
  exact chain_parsed (fun _ _ => accessStep_parsed hr) h₁

theorem prefixed_parsed (hr : r.Parses) {kind : Kind}
    (hk : ∀ a b : Option Tree, isPlainNode kind [a, b] = true) (h : Reads c us c')
    (hc : ¬ c'.atEnd = true) : (prefixed r kind).Ensures c' (Parsed c us) := by
  refine (token_took h hc).bind fun op c₁ h₁ => ?_
  refine (hr.unary h₁.reads).bind fun operand c₂ h₂ => ?_
  exact .pure (.plain (by simpa using h₂.reads) (by simp [h₁.consumed]) (hk _ _))

theorem keywordOperand_parsed (hr : r.Parses) {kind : Kind}
    (hk : ∀ a b : Option Tree, isPlainNode kind [a, b] = true) (h : Reads c us c')
    (hc : ¬ c'.atEnd = true) : (keywordOperand r kind).Ensures c' (Parsed c us) := by
  refine (token_took h hc).bind fun keyword c₁ h₁ => ?_
  refine (hr.binary _ h₁.reads).bind fun operand c₂ h₂ => ?_
  exact .pure (.plain (by simpa using h₂.reads) (by simp [h₁.consumed]) (hk _ _))

theorem yieldExpression_parsed (hr : r.Parses) (h : Reads c us c') (hc : ¬ c'.atEnd = true) :
    (yieldExpression r).Ensures c' (Parsed c us) := by
  refine (token_took h hc).bind fun keyword c₁ h₁ => .get ?_
  split
  · next hf =>
    refine (token_took h₁.reads (Cursor.not_atEnd_of_seesKeyword hf)).bind fun source c₂ h₂ => ?_
    refine (hr.binary _ h₂.reads).bind fun value c₃ h₃ => ?_
    exact .pure (.plain (by simpa using h₃.reads) (by simp [h₁.consumed]) rfl)
  split
  · exact .pure (.plain (by simpa using h₁.reads) (by simp [h₁.consumed]) rfl)
  refine (hr.binary _ h₁.reads).bind fun first c₂ h₂ => ?_
  refine (eat_reads .doubleArrow h₂.reads).bind fun o c₃ h₃ => ?_
  cases o with
  | some arrow =>
    refine (hr.binary _ h₃).bind fun value c₄ h₄ => ?_
    exact .pure (.plain (by simpa using h₄.reads) (by simp [h₁.consumed]) rfl)
  | none => exact .pure (.plain (by simpa using h₃) (by simp [h₁.consumed]) rfl)

theorem afterAccess_parsed (hr : r.Parses) {tree : Tree} (h : Parsed c us tree c') :
    (afterAccess r tree).Ensures c' (Parsed c us) := by
  refine .get ?_
  split
  · next hc =>
    refine (token_took h.reads (Cursor.not_atEnd_of_sees hc)).bind fun op c₁ h₁ => ?_
    refine (hr.unary h₁.reads).bind fun power c₂ h₂ => ?_
    exact .pure (.plain (by simpa using h₂.reads) (by simp [h₁.consumed]) rfl)
  split
  · exact .pure h
  split
  · next hc =>
    refine (token_took h.reads (Cursor.not_atEnd_of_sees hc)).bind fun op c₁ h₁ => ?_
    refine (eat_reads .ampersand h₁.reads).bind fun o c₂ h₂ => ?_
    cases o with
    | some ampersand =>
      refine (hr.binary _ h₂).bind fun value c₃ h₃ => ?_
      exact .pure (.plain (by simpa using h₃.reads) (by simp [h₁.consumed]) rfl)
    | none =>
      refine (hr.binary _ h₂).bind fun value c₃ h₃ => ?_
      exact .pure (.plain (by simpa using h₃.reads) (by simp [h₁.consumed]) rfl)
  split
  · next hc =>
    refine (token_took h.reads (Cursor.not_atEnd_of_seesAny hc)).bind fun op c₁ h₁ => ?_
    refine (hr.binary _ h₁.reads).bind fun value c₂ h₂ => ?_
    exact .pure (.plain (by simpa using h₂.reads) (by simp [h₁.consumed]) rfl)
  · exact .pure h

theorem prefixKind_spec {kind : Kind} (h : c.prefixKind? = some kind) :
    ¬ c.atEnd = true ∧ ∀ a b : Option Tree, isPlainNode kind [a, b] = true := by
  unfold Cursor.prefixKind? at h
  split at h
  · next hk =>
    cases h
    exact ⟨by simp [Cursor.atEnd_iff, hk], fun _ _ => rfl⟩
  · next hk =>
    obtain ⟨p, hp, rfl⟩ := Option.map_eq_some_iff.mp h
    have hm := List.mem_of_find?_eq_some hp
    simp only [prefixKinds, List.mem_cons, List.not_mem_nil, or_false] at hm
    refine ⟨by simp [Cursor.atEnd_iff, hk], fun _ _ => ?_⟩
    obtain rfl | rfl | rfl | rfl | rfl | rfl := hm <;> rfl
  · next hk =>
    split at h
    · cases h
      exact ⟨by simp [Cursor.atEnd_iff, hk], fun _ _ => rfl⟩
    · cases h
  · cases h

theorem operandKind_spec {kind : Kind} (h : c.operandKind? = some kind) :
    ¬ c.atEnd = true ∧ ∀ a b : Option Tree, isPlainNode kind [a, b] = true := by
  unfold Cursor.operandKind? at h
  split at h
  · next hk => cases h; exact ⟨Cursor.not_atEnd_of_seesKeyword hk, fun _ _ => rfl⟩
  split at h
  · next hk => cases h; exact ⟨Cursor.not_atEnd_of_seesKeyword hk, fun _ _ => rfl⟩
  split at h
  · next hk => cases h; exact ⟨Cursor.not_atEnd_of_seesAnyKeyword hk, fun _ _ => rfl⟩
  · cases h

theorem unary_parses (hr : r.Parses) : (unary r).Parses := by
  intro c us c' h
  refine .get ?_
  split
  · next hk => exact prefixed_parsed hr (prefixKind_spec hk).2 h (prefixKind_spec hk).1
  · next hk => exact keywordOperand_parsed hr (operandKind_spec hk).2 h (operandKind_spec hk).1
  split
  · next hc =>
    refine (token_took h (Cursor.not_atEnd_of_sees hc)).bind fun op c₁ h₁ => ?_
    refine (hr.binary _ h₁.reads).bind fun operand c₂ h₂ => ?_
    exact .pure (.plain (by simpa using h₂.reads) (by simp [h₁.consumed]) rfl)
  split
  · next hc => exact yieldExpression_parsed hr h (Cursor.not_atEnd_of_seesKeyword hc)
  · refine (access_parses hr h).bind fun tree c₁ h₁ => ?_
    exact afterAccess_parsed hr h₁

theorem conditional_parsed (hr : r.Parses) {condition : Tree} (level : Nat)
    (h : Parsed c us condition c') (hc : ¬ c'.atEnd = true) :
    (conditional r condition level).Ensures c' (Parsed c us) := by
  refine (token_took h.reads hc).bind fun query c₁ h₁ => ?_
  refine (optional_reads h₁.reads fun _ => hr.expression h₁.reads).bind fun yes c₂ h₂ => ?_
  refine (expect_took _ h₂).bind fun colon c₃ h₃ => ?_
  refine (hr.binary _ h₃.reads).bind fun no c₄ h₄ => ?_
  exact .pure (.plain (by simpa [filled_cons] using h₄.reads) (by simp [h₁.consumed]) rfl)

/-- The operators other than the conditional one have two operands. -/
theorem isPlainNode_of_level {kind : Kind} {level : Nat} (h : kind.level? = some level)
    (hk : kind ≠ .conditionalExpression) (a b d : Option Tree) :
    isPlainNode kind [a, b, d] = true := by
  unfold Kind.level? at h
  split at h <;> first | rfl | exact absurd rfl hk | cases h

theorem operator_spec {kind : Kind} {level : Nat} (h : c.operator? = some (kind, level)) :
    ¬ c.atEnd = true ∧ kind.level? = some level := by
  have level_of : ∀ {o : Option Kind}, (o.bind fun k => k.level?.bind fun l => some (k, l)) =
      some (kind, level) → kind.level? = some level := by
    intro o ho
    obtain ⟨k, -, hk⟩ := Option.bind_eq_some_iff.mp ho
    obtain ⟨l, hl, he⟩ := Option.bind_eq_some_iff.mp hk
    cases he
    exact hl
  unfold Cursor.operator? at h
  split at h
  · next hk => exact ⟨by simp [Cursor.atEnd_iff, hk], level_of h⟩
  · next hk => exact ⟨by simp [Cursor.atEnd_iff, hk], level_of h⟩
  · cases h

theorem operatorStep_parsed (hr : r.Parses) (minLevel : Nat) {left : Tree}
    (h : Parsed c us left c') :
    (operatorStep r minLevel left).Ensures c' fun o d => Parsed c us (o.getD left) d := by
  refine .get ?_
  split
  · exact .pure h
  · next kind level hop =>
    obtain ⟨hc, hl⟩ := operator_spec hop
    split
    · exact .pure h
    split
    · exact .map (conditional_parsed hr level h hc)
    · next hk => exact joined_parsed (isPlainNode_of_level hl hk) h hc (hr.binary _)

theorem binary_parses (hr : r.Parses) (minLevel : Nat) : (binary r minLevel).Parses := by
  intro c us c' h
  refine (unary_parses hr h).bind fun tree c₁ h₁ => ?_
  exact chain_parsed (fun _ _ => operatorStep_parsed hr minLevel) h₁

theorem expression_parses (hr : r.Parses) : (expression r).Parses :=
  binary_parses hr 0

end PhpSyntax.Grammar
