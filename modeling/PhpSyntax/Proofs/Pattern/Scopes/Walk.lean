import PhpSyntax.Proofs.Pattern.Escapes
import PhpSyntax.Proofs.Pattern.Visit

/-!
Flags and the places where they hold. A group may set and clear flags for its content, or, when it
has none, for all that follows it inside the group around it.
-/

namespace PhpSyntax.Pattern

mutual

/-- The flags after a regular expression before which some flags hold. -/
@[simp]
def Regex.after (flags : Flags) : Regex → Flags
  | .sequence items _ => afterAll flags items
  | .disjunction alternatives _ => afterAll flags alternatives
  | .repetition element _ _ => element.after flags
  | .group (.nonCapturing (some change)) none _ => change.apply flags
  | .group .. | .conditional .. | .character _ | .dot _ | .boundary .. | .backReference ..
  | .escapedClass _ | .characterClass _ => flags

@[simp]
def afterAll (flags : Flags) : List Regex → Flags
  | [] => flags
  | t :: ts => afterAll (t.after flags) ts

end

def GroupKind.within (flags : Flags) : GroupKind → Flags
  | .nonCapturing (some change) => change.apply flags
  | _ => flags

mutual

/-- The class unions of a regular expression, each with the flags that hold at its place. -/
@[simp]
def Regex.scopes (flags : Flags) : Regex → List (ClassUnion × Flags)
  | .sequence items _ => scopesAll flags items
  | .disjunction alternatives _ => scopesAll flags alternatives
  | .repetition element _ _ => element.scopes flags
  | .group kind element _ => scopes? (kind.within flags) element
  | .conditional condition yes no _ =>
    conditionScopes flags condition ++ (yes.scopes flags ++ scopes? (yes.after flags) no)
  | .characterClass c => (Part.characterClass c).unions.map fun u => (u, flags)
  | .character _ | .dot _ | .boundary .. | .backReference .. | .escapedClass _ => []

@[simp]
def scopesAll (flags : Flags) : List Regex → List (ClassUnion × Flags)
  | [] => []
  | t :: ts => t.scopes flags ++ scopesAll (t.after flags) ts

@[simp]
def scopes? (flags : Flags) : Option Regex → List (ClassUnion × Flags)
  | none => []
  | some t => t.scopes flags

@[simp]
def conditionScopes (flags : Flags) : Condition → List (ClassUnion × Flags)
  | .reference _ => []
  | .assertion _ _ element _ => element.scopes flags

end

mutual

/-- Every class union has a place. -/
theorem Regex.scopes_fst (flags : Flags) (tree : Regex) :
    (tree.scopes flags).map Prod.fst = tree.unions := by
  rw [Regex.unions_eq]
  cases tree with
  | sequence items s =>
    simpa [Part.ofRegex, Part.children, List.flatMap_map] using
      scopesAll_fst flags items
  | disjunction alternatives s =>
    simpa [Part.ofRegex, Part.children, List.flatMap_map] using
      scopesAll_fst flags alternatives
  | repetition element q s =>
    simpa [Part.ofRegex, Part.children] using Regex.scopes_fst flags element
  | group kind element s =>
    simpa [Part.ofRegex, Part.children, List.flatMap_map] using
      scopes?_fst (kind.within flags) element
  | conditional condition yes no s =>
    have htest := conditionScopes_fst flags condition
    have hyes := Regex.scopes_fst flags yes
    have hno := scopes?_fst (yes.after flags) no
    simpa [Part.ofRegex, Part.children, List.flatMap_map, hyes, htest] using hno
  | characterClass c =>
    have h : (Part.characterClass c).unions = [Part.union c.union].flatMap Part.unions :=
      Part.unions_of_ne nofun
    simp [Part.ofRegex, Part.children, h, Function.comp_def]
  | character | dot | boundary | backReference | escapedClass =>
    simp [Part.ofRegex, Part.children]

theorem scopesAll_fst (flags : Flags) (trees : List Regex) :
    (scopesAll flags trees).map Prod.fst = trees.flatMap Regex.unions := by
  cases trees with
  | nil => rw [scopesAll]; rfl
  | cons t ts =>
    rw [scopesAll, List.map_append, Regex.scopes_fst flags t, scopesAll_fst (t.after flags) ts]
    rfl

theorem scopes?_fst (flags : Flags) (tree : Option Regex) :
    (scopes? flags tree).map Prod.fst = tree.toList.flatMap Regex.unions := by
  cases tree with
  | none => rw [scopes?]; rfl
  | some t => rw [scopes?, Regex.scopes_fst flags t]; simp

theorem conditionScopes_fst (flags : Flags) (condition : Condition) :
    (conditionScopes flags condition).map Prod.fst =
      (Part.ofCondition condition).flatMap Part.unions := by
  rw [unions_ofCondition]
  cases condition with
  | reference text => rw [conditionScopes]; rfl
  | assertion behind negated element s => rw [conditionScopes, Regex.scopes_fst flags element]

end

theorem scopesAll_append (flags : Flags) (ts us : List Regex) :
    scopesAll flags (ts ++ us) = scopesAll flags ts ++ scopesAll (afterAll flags ts) us := by
  induction ts generalizing flags with
  | nil => rw [List.nil_append, scopesAll, afterAll, List.nil_append]
  | cons t ts ih => rw [List.cons_append, scopesAll, scopesAll, afterAll, ih, List.append_assoc]

theorem afterAll_append (flags : Flags) (ts us : List Regex) :
    afterAll flags (ts ++ us) = afterAll (afterAll flags ts) us := by
  induction ts generalizing flags with
  | nil => rw [List.nil_append, afterAll]
  | cons t ts ih => rw [List.cons_append, afterAll, afterAll, ih]

/-- Regular expressions that follow each other lead from flags to flags, and every class union in
them has noted the flags that hold at its place. -/
structure Threaded (flags : Flags) (trees : List Regex) (flags' : Flags) : Prop where
  noted : ∀ s ∈ scopesAll flags trees, s.1.flags = s.2
  after : afterAll flags trees = flags'

theorem threaded_singleton {flags flags' : Flags} {t : Regex} :
    Threaded flags [t] flags' ↔
      (∀ s ∈ t.scopes flags, s.1.flags = s.2) ∧ t.after flags = flags' := by
  constructor
  · rintro ⟨hnoted, hafter⟩
    simpa using And.intro hnoted hafter
  · rintro ⟨hnoted, hafter⟩
    exact ⟨by simpa using hnoted, by simpa using hafter⟩

namespace Threaded

variable {flags flags' flags'' : Flags} {t : Regex} {ts us : List Regex}

theorem nil (flags : Flags) : Threaded flags [] flags :=
  ⟨by simp, by simp⟩

theorem append (h : Threaded flags ts flags') (h' : Threaded flags' us flags'') :
    Threaded flags (ts ++ us) flags'' := by
  obtain ⟨hnoted, rfl⟩ := h
  refine ⟨?_, (afterAll_append ..).trans h'.after⟩
  rw [scopesAll_append]
  exact List.forall_mem_append.mpr ⟨hnoted, h'.noted⟩

theorem plain (flags : Flags) (ht : t.isPlain) : Threaded flags [t] flags := by
  unfold Regex.isPlain at ht
  rw [threaded_singleton]
  split at ht <;> simp_all

theorem plains (flags : Flags) (hts : ∀ t ∈ ts, t.isPlain) : Threaded flags ts flags := by
  induction ts with
  | nil => exact .nil flags
  | cons t ts ih =>
    have hts := List.forall_mem_cons.mp hts
    exact (plain flags hts.1).append (ih hts.2)

theorem sequence (h : Threaded flags ts flags') (s : Span) :
    Threaded flags [.sequence ts s] flags' := by
  rw [threaded_singleton, Regex.scopes, Regex.after]
  exact ⟨h.noted, h.after⟩

theorem disjunction (h : Threaded flags ts flags') (s : Span) :
    Threaded flags [.disjunction ts s] flags' := by
  rw [threaded_singleton, Regex.scopes, Regex.after]
  exact ⟨h.noted, h.after⟩

theorem of_disjunction {s : Span} (h : Threaded flags [.disjunction ts s] flags') :
    Threaded flags ts flags' := by
  rw [threaded_singleton, Regex.scopes, Regex.after] at h
  exact ⟨h.1, h.2⟩

theorem repetition (h : Threaded flags [t] flags') (q : Quantifier) (s : Span) :
    Threaded flags [.repetition t q s] flags' := by
  rw [threaded_singleton, Regex.scopes, Regex.after]
  exact threaded_singleton.mp h

theorem group {kind : GroupKind} (h : Threaded (kind.within flags) [t] flags') (s : Span) :
    Threaded flags [.group kind (some t) s] flags := by
  rw [threaded_singleton, Regex.scopes, scopes?]
  exact ⟨(threaded_singleton.mp h).1, by simp⟩

theorem change (flags : Flags) (change : FlagChange) (s : Span) :
    Threaded flags [.group (.nonCapturing (some change)) none s] (change.apply flags) := by
  rw [threaded_singleton, Regex.scopes, scopes?, Regex.after]
  exact ⟨List.forall_mem_nil _, rfl⟩

theorem conditional {condition : Condition} {yes : Regex} {no : Option Regex}
    (hcondition : ∀ s ∈ conditionScopes flags condition, s.1.flags = s.2)
    (h : Threaded flags (yes :: no.toList) flags') (s : Span) :
    Threaded flags [.conditional condition yes no s] flags := by
  rw [threaded_singleton, Regex.scopes, Regex.after]
  refine ⟨List.forall_mem_append.mpr ⟨hcondition, ?_⟩, rfl⟩
  cases no with
  | none => simpa using h.noted
  | some t => simpa using h.noted

theorem characterClass {c : CharacterClass}
    (h : (Part.union c.union).Holds fun u => u.flags = flags) :
    Threaded flags [.characterClass c] flags := by
  rw [threaded_singleton, Regex.scopes, Regex.after]
  refine ⟨fun s hs => ?_, rfl⟩
  obtain ⟨u, hu, rfl⟩ := List.mem_map.mp hs
  exact Part.holds_characterClass.mpr h u (Part.mem_unions.mp hu)

end Threaded

end PhpSyntax.Pattern
