import PhpSyntax.Proofs.Pattern.Checked
import PhpSyntax.Proofs.Pattern.Places
import PhpSyntax.Proofs.Pattern.Reached

/-!
The findings about a file, call by call. What is found in a call depends on nothing but the call,
so that a broken pattern takes the findings of its call away and those of no other call.
-/

namespace PhpSyntax.Pattern

def report? (source : DelimitedPattern) (u : ClassUnion) : Option Finding :=
  match duplicates u with
  | .ok (first :: rest) =>
    some ⟨source.locationOf first.span, duplicatesMessage,
      rest.map fun e => ⟨source.locationOf e.span, some duplicateMessage⟩⟩
  | _ => none

/-- The findings about the unions of a pattern, without those inside of unions with an inverted
range. -/
def reports (p : AnalysedPattern) : List Finding :=
  (p.parsed.tree.reached isAbandoned).filterMap (report? p.source)

def callReports (call : FunctionCall) : List Finding :=
  ((patternOf? call).map reports).getD []

/-- A call names a function that takes a pattern, and passes it a pattern without errors in a
literal. -/
structure Passes (call : FunctionCall) (p : AnalysedPattern) : Prop where
  callee : ∃ callee text, call.callee? = some callee ∧
    (callee.kind = .nameIdentifier ∨ callee.kind = .namespaceName) ∧ callee.text? = some text ∧
    p.functionName = FunctionCall.withoutLeadingBackslashes text
  function : ∃ name ∈ regexFunctions, Text.sameIgnoringCase name p.functionName
  argument : ∃ value token, patternArgument.value? call = some value ∧
    value.skipParentheses = .leaf .regularStringLiteral token ∧
    DelimitedPattern.ofLiteral (.leaf .regularStringLiteral token) = .ok p.source
  parsed : p.parsed = p.source.parse
  errors : p.parsed.errors = []

theorem functionName_eq_some {call : FunctionCall} {name : String} :
    call.functionName? = some name ↔ ∃ callee text, call.callee? = some callee ∧
      (callee.kind = .nameIdentifier ∨ callee.kind = .namespaceName) ∧ callee.text? = some text ∧
      name = FunctionCall.withoutLeadingBackslashes text := by
  unfold FunctionCall.functionName?
  constructor
  · intro h
    obtain ⟨callee, hcallee, h⟩ := Option.bind_eq_some_iff.mp h
    obtain ⟨⟨⟩, hguard, h⟩ := Option.bind_eq_some_iff.mp h
    obtain ⟨text, htext, h⟩ := Option.bind_eq_some_iff.mp h
    have hkind := (Option.guard_eq_some' ()).mp hguard
    exact ⟨callee, text, hcallee, by simpa using hkind, htext, (Option.some.inj h).symm⟩
  · rintro ⟨callee, text, hcallee, hkind, htext, rfl⟩
    have hguard : (guard (callee.kind = .nameIdentifier || callee.kind = .namespaceName) :
        Option Unit) = some () := (Option.guard_eq_some' ()).mpr (by simpa using hkind)
    rw [hcallee, Option.bind_eq_bind, Option.bind_some, hguard, htext]
    rfl

/-- The pattern that is looked at in a call is the one that the call passes. -/
theorem patternOf_eq_some {call : FunctionCall} {p : AnalysedPattern} :
    patternOf? call = some p ↔ Passes call p := by
  constructor
  · intro h
    obtain ⟨name, hname, h⟩ := Option.bind_eq_some_iff.mp h
    obtain ⟨⟨⟩, hfunction, h⟩ := Option.bind_eq_some_iff.mp h
    obtain ⟨value, hvalue, h⟩ := Option.bind_eq_some_iff.mp h
    obtain ⟨source, hsource, h⟩ := Option.bind_eq_some_iff.mp h
    obtain ⟨⟨⟩, herrors, h⟩ := Option.bind_eq_some_iff.mp h
    cases h
    have hok := eq_ok_of_toOption hsource
    obtain ⟨token, _, _, hleaf, -⟩ := DelimitedPattern.ofLiteral_writtenIn hok
    have hfunction := (Option.guard_eq_some' ()).mp hfunction
    have herrors := (Option.guard_eq_some' ()).mp herrors
    exact
      { callee := functionName_eq_some.mp hname
        function := by simpa [isRegexFunction] using hfunction
        argument := ⟨value, token, hvalue, hleaf, hleaf ▸ hok⟩
        parsed := rfl
        errors := by simpa [ParsedPattern.hasErrors] using herrors }
  · intro h
    obtain ⟨name, source, parsed⟩ := p
    obtain ⟨value, token, hvalue, hleaf, hok⟩ := h.argument
    obtain rfl : parsed = source.parse := h.parsed
    have hname := functionName_eq_some.mpr h.callee
    have hfunction : isRegexFunction name = true := by
      simpa [isRegexFunction] using h.function
    have hsource : (DelimitedPattern.ofLiteral value.skipParentheses).toOption = some source := by
      rw [hleaf, hok]
      rfl
    have herrors : source.parse.hasErrors = false := by
      simpa [ParsedPattern.hasErrors] using h.errors
    simp [patternOf?, hname, hfunction, hvalue, hsource, herrors]

instance (call : FunctionCall) : Decidable (∃ p, Passes call p) :=
  decidable_of_iff (patternOf? call).isSome <| by
    simp only [Option.isSome_iff_exists, patternOf_eq_some]

theorem finding_eq_report {source : DelimitedPattern} {u : ClassUnion} {finding : Option Finding}
    (h : unionFinding source u = .ok finding) : finding = report? source u := by
  unfold unionFinding at h
  unfold report?
  split at h
  · next members hmembers =>
    cases h
    rw [hmembers]
    cases members with
    | nil => rfl
    | cons first rest =>
      exact congrArg some (foldl_addSecondary source rest (.ofPrimary _ duplicatesMessage))
  · next hinverted =>
    cases h
    rw [hinverted]
  · cases h

theorem patternFindings_eq {p : AnalysedPattern} {findings : List Finding}
    (h : patternFindings p = .ok findings) : findings = reports p := by
  simp only [patternFindings, bind, Except.bind] at h
  split at h
  · simp at h
  · next found hfound =>
    cases h
    rw [eq_map_of_mapM hfound fun u _ => finding_eq_report, reports,
      ← checkedUnions_eq (returns_of_mapM hfound), List.filterMap_map]
    rfl

theorem analysedPatterns_eq (tree : Tree) :
    analysedPatterns tree = tree.calls.filterMap patternOf? := by
  rw [analysedPatterns, callsOf, Tree.descendants_eq, Tree.calls]

theorem flatMap_reports (calls : List FunctionCall) :
    (calls.filterMap patternOf?).flatMap reports = calls.flatMap callReports := by
  induction calls with
  | nil => rfl
  | cons call calls ih =>
    rw [List.flatMap_cons, ← ih, List.filterMap_cons, callReports]
    cases patternOf? call <;> rfl

/-- The findings are those about one call after the other. -/
theorem findings_eq {tree : Tree} {findings : List Finding}
    (h : duplicatesInCharacterClass tree = .ok findings) :
    findings = tree.calls.flatMap callReports := by
  simp only [duplicatesInCharacterClass, bind, Except.bind] at h
  split at h
  · simp at h
  · next found hfound =>
    cases h
    rw [eq_map_of_mapM hfound fun p _ => patternFindings_eq, analysedPatterns_eq,
      ← flatMap_reports]
    rfl

/-- The findings about each pattern of a file are returned if those about the file are. -/
theorem duplicatesInCharacterClass_ok {tree : Tree} :
    (∃ findings, duplicatesInCharacterClass tree = .ok findings) ↔
      ∀ p ∈ analysedPatterns tree, ∃ findings, patternFindings p = .ok findings := by
  constructor
  · rintro ⟨findings, h⟩
    simp only [duplicatesInCharacterClass, bind, Except.bind] at h
    split at h
    · simp at h
    · next found hfound => exact returns_of_mapM hfound
  · intro h
    obtain ⟨found, hfound⟩ := mapM_returns h
    exact ⟨found.flatten, by rw [duplicatesInCharacterClass, hfound]; rfl⟩

def IsBroken (expression : Tree) : Prop :=
  ∀ p, DelimitedPattern.ofLiteral expression.skipParentheses = .ok p → p.parse.errors ≠ []

theorem not_passes_of_broken {call : FunctionCall} {value : Tree}
    (hvalue : patternArgument.value? call = some value) (h : IsBroken value) :
    ∀ p, ¬ Passes call p := by
  intro p hp
  obtain ⟨value', token, hvalue', hleaf, hok⟩ := hp.argument
  obtain rfl : value' = value := Option.some.inj (hvalue'.symm.trans hvalue)
  exact h p.source (hleaf ▸ hok) (hp.parsed ▸ hp.errors)

theorem patternOf_eq_none {call : FunctionCall} (h : ∀ p, ¬ Passes call p) :
    patternOf? call = none :=
  Option.eq_none_iff_forall_ne_some.mpr fun p hp => h p (patternOf_eq_some.mp hp)

section SamePatterns

variable {calls calls' : List FunctionCall} (h : calls'.map patternOf? = calls.map patternOf?)
include h

theorem reports_congr : calls'.map callReports = calls.map callReports := by
  have h := congrArg (List.map fun p => (p.map reports).getD []) h
  rwa [List.map_map, List.map_map] at h

theorem patterns_congr : calls'.filterMap patternOf? = calls.filterMap patternOf? := by
  have h := congrArg (List.filterMap id) h
  rwa [List.filterMap_map, List.filterMap_map] at h

end SamePatterns

/-- One call has lost its findings, every other call has those that it had, and these are all. -/
def LosesOnly (tree tree' : Tree) (call call' : FunctionCall) : Prop :=
  ∃ before after before' after', tree.calls = before ++ call :: after ∧
    tree'.calls = before' ++ call' :: after' ∧
    before'.map callReports = before.map callReports ∧
    after'.map callReports = after.map callReports ∧ callReports call' = [] ∧
    duplicatesInCharacterClass tree' =
      .ok (before.flatMap callReports ++ after.flatMap callReports)

theorem losesOnly_of_broken {place : ArgumentPlace} {value broken : Tree} {context : Tree.Context}
    {findings : List Finding}
    (h : duplicatesInCharacterClass (context.fill (place.call value).tree) = .ok findings)
    (hcalls : broken.calls = value.calls)
    (hvalue : patternArgument.value? (place.call broken) = some broken) (hbroken : IsBroken broken) :
    LosesOnly (context.fill (place.call value).tree) (context.fill (place.call broken).tree)
      (place.call value) (place.call broken) := by
  obtain ⟨before, after, before', after', hsplit, hsplit', hbefore, hafter⟩ :=
    place.calls_replaced hcalls context
  have hnone := patternOf_eq_none (not_passes_of_broken hvalue hbroken)
  have hreports : callReports (place.call broken) = [] := by rw [callReports, hnone]; rfl
  -- the patterns that are left are those of the other calls
  have hpatterns : analysedPatterns (context.fill (place.call broken).tree) ⊆
      analysedPatterns (context.fill (place.call value).tree) := by
    rw [analysedPatterns_eq, analysedPatterns_eq, hsplit, hsplit', List.filterMap_append,
      List.filterMap_append, List.filterMap_cons_none hnone, patterns_congr hbefore,
      patterns_congr hafter]
    refine List.append_subset.mpr ⟨List.subset_append_left .., ?_⟩
    refine List.Subset.trans ?_ (List.subset_append_right ..)
    exact List.filterMap_subset _ (List.subset_cons_self ..)
  have hreturns := duplicatesInCharacterClass_ok.mp ⟨findings, h⟩
  obtain ⟨found, hfound⟩ := duplicatesInCharacterClass_ok.mpr fun p hp => hreturns p (hpatterns hp)
  refine ⟨before, after, before', after', hsplit, hsplit', reports_congr hbefore, reports_congr hafter,
    hreports, ?_⟩
  rw [hfound, findings_eq hfound, hsplit', List.flatMap_append, List.flatMap_cons, hreports,
    List.nil_append, List.flatMap_def, List.flatMap_def, reports_congr hbefore, reports_congr hafter,
    ← List.flatMap_def, ← List.flatMap_def]

/-- The findings about a file are those about its calls, and each call stands on its own. -/
structure FoundByCall (tree : Tree) (findings : List Finding) : Prop where
  concat : findings = tree.calls.flatMap callReports
  skipped : ∀ call, (∀ p, ¬ Passes call p) → callReports call = []
  reported : ∀ call p, Passes call p → callReports call = reports p
  /-- A broken pattern can be passed in place of any other. -/
  kept : ∀ call p, Passes call p → ∃ (place : ArgumentPlace) (value : Tree),
    call = place.call value ∧ (∀ v, patternArgument.value? (place.call v) = some v) ∧
    ∀ (context : Tree.Context) (broken : Tree), tree = context.fill call.tree →
      broken.calls = value.calls → IsBroken broken →
      LosesOnly tree (context.fill (place.call broken).tree) call (place.call broken)
  count : (analysedPatterns tree).length =
    tree.calls.countP fun call => decide (∃ p, Passes call p)

/-- Where the findings about a file are returned, each call has findings about its own pattern
only. -/
theorem findings_by_call {tree : Tree} {findings : List Finding}
    (h : duplicatesInCharacterClass tree = .ok findings) : FoundByCall tree findings where
  concat := findings_eq h
  skipped call hnone := by rw [callReports, patternOf_eq_none hnone]; rfl
  reported call p hp := by rw [callReports, patternOf_eq_some.mpr hp]; rfl
  kept call p hp := by
    obtain ⟨value, -, hvalue, -, -⟩ := hp.argument
    obtain ⟨place, rfl, hplace⟩ := exists_place hvalue
    refine ⟨place, value, rfl, hplace, ?_⟩
    rintro context broken rfl hcalls hbroken
    exact losesOnly_of_broken h hcalls (hplace broken) hbroken
  count := by
    rw [analysedPatterns_eq, List.length_filterMap_eq_countP]
    refine List.countP_congr fun call _ => ?_
    simp only [decide_eq_true_eq, Option.isSome_iff_exists, patternOf_eq_some]

/-- The union with an inverted range hides the one in it, and a class without an end makes a
pattern broken. -/
theorem findings_by_call_nested :
    let source := "<?php preg_match('/[xx](?(?=[aa])[c-a[dd]])/', preg_grep('/[/', \\PREG_SPLIT(" ++
      "pattern: ('~[y[zz]]~'))));"
    ∃ tree findings, Grammar.parseSource source = .ok tree ∧
      duplicatesInCharacterClass tree = .ok findings ∧ FoundByCall tree findings ∧
      tree.calls.map (fun call => (callReports call).length) = [2, 0, 1] := by
  intro source
  have h : (Grammar.parseSource source).toOption.any fun tree =>
      (duplicatesInCharacterClass tree).toOption.isSome &&
        decide (tree.calls.map (fun call => (callReports call).length) = [2, 0, 1]) := by
    decide +kernel
  obtain ⟨tree, htree, h⟩ := (Option.any_eq_true _ _).mp h
  rw [Bool.and_eq_true, Option.isSome_iff_exists, decide_eq_true_eq] at h
  obtain ⟨⟨findings, hfindings⟩, hreports⟩ := h
  have hok := eq_ok_of_toOption hfindings
  exact ⟨tree, findings, eq_ok_of_toOption htree, hok, findings_by_call hok, hreports⟩

end PhpSyntax.Pattern
