import PhpSyntax.Pattern.Duplicates
import PhpSyntax.Proofs.Pattern.ClassSet.Owners

namespace PhpSyntax.Pattern

namespace DuplicateSearch

/-- What one step of a search does: the member at `i` has the code points of `set`, which are
those of the members at `overlapping` too. -/
structure Steps (flags : Flags) (e : ClassElement) (i : Nat) (set : ClassSet Nat)
    (overlapping : List Nat) (search search' : DuplicateSearch) : Prop where
  ofElement : ClassSet.ofElement e flags i = .ok set
  intersections : search.seen.intersections set = .ok overlapping
  addSet : search.seen.addSet set = .ok search'.seen
  nodup : search.duplicates.Nodup → search'.duplicates.Nodup
  mem : ∀ j, j ∈ search'.duplicates ↔
    j ∈ search.duplicates ∨ overlapping ≠ [] ∧ (j ∈ overlapping ∨ j = i)

theorem steps_of_step {flags : Flags} {search search' : DuplicateSearch} {e : ClassElement}
    {i : Nat} (h : search.step flags (e, i) = .ok search') :
    ∃ set overlapping, Steps flags e i set overlapping search search' := by
  simp only [step, bind, Except.bind] at h
  split at h
  · simp at h
  rename_i set hset
  split at h
  · simp at h
  rename_i overlapping hoverlapping
  split at h
  · simp at h
  rename_i seen hseen
  cases h
  refine ⟨set, overlapping, hset, hoverlapping, hseen, ClassSet.nodup_foldl_insertOwner, ?_⟩
  intro j
  rw [ClassSet.mem_foldl_insertOwner]
  cases overlapping with
  | nil => simp
  | cons w ws => simp [or_assoc]

/-- What each step of a search over members keeps, the whole search keeps. -/
theorem foldlM_steps {Q : Nat → Except ClassSetFault DuplicateSearch → Prop} {flags : Flags}
    {es : List ClassElement} (hfault : ∀ n fault, Q n (.error fault) → Q (n + 1) (.error fault))
    (hstep : ∀ n e search, es[n]? = some e → Q n (.ok search) →
      Q (n + 1) (search.step flags (e, n)))
    {search : DuplicateSearch} (h₀ : Q 0 (.ok search)) :
    Q es.length (es.zipIdx.foldlM (step flags) search) := by
  -- the members before the current place are `front`
  suffices ∀ rest front result, es = front ++ rest → Q front.length result →
      Q es.length (result >>= fun search => (rest.zipIdx front.length).foldlM (step flags) search)
    from this es [] (.ok search) rfl h₀
  intro rest
  induction rest with
  | nil =>
    intro front result hes hresult
    rw [hes, List.append_nil]
    cases result <;> exact hresult
  | cons e rest ih =>
    intro front result hes hresult
    have hlen : (front ++ [e]).length = front.length + 1 := by simp
    have hnext := ih (front ++ [e]) (result >>= fun search => search.step flags (e, front.length))
      (by simp [hes])
    rw [hlen] at hnext
    cases result with
    | error fault => exact hnext (hfault _ fault hresult)
    | ok search =>
      simp only [List.zipIdx_cons, List.foldlM_cons]
      exact hnext (hstep _ e search (by simp [hes]) hresult)

/-- The owners are places before `n`, and each reported place comes with another. -/
structure Sound (n : Nat) (search : DuplicateSearch) : Prop where
  seen : search.seen.OwnedBy (· < n)
  nodup : search.duplicates.Nodup
  places : ∀ i ∈ search.duplicates, i < n
  several : ∀ i ∈ search.duplicates, ∃ j ∈ search.duplicates, j ≠ i

theorem Sound.step {n : Nat} {flags : Flags} {search search' : DuplicateSearch}
    {e : ClassElement} (hs : search.Sound n) (h : search.step flags (e, n) = .ok search') :
    search'.Sound (n + 1) := by
  obtain ⟨set, overlapping, h⟩ := steps_of_step h
  have hbefore : ∀ w ∈ overlapping, w < n := hs.seen.intersections h.intersections
  refine ⟨?_, h.nodup hs.nodup, fun i hi => ?_, fun i hi => ?_⟩
  · refine (hs.seen.imp fun w hw => ?_).addSet ((ClassSet.ofElement_ownedBy h.ofElement).imp ?_)
      h.addSet
    · exact Nat.lt_succ_of_lt hw
    · rintro w rfl
      exact Nat.lt_succ_self w
  · obtain hi | ⟨-, hi | rfl⟩ := (h.mem i).mp hi
    · exact Nat.lt_succ_of_lt (hs.places i hi)
    · exact Nat.lt_succ_of_lt (hbefore i hi)
    · exact Nat.lt_succ_self i
  · obtain hi | ⟨hne, hi | rfl⟩ := (h.mem i).mp hi
    · obtain ⟨j, hj, hji⟩ := hs.several i hi
      exact ⟨j, (h.mem j).mpr (.inl hj), hji⟩
    · exact ⟨n, (h.mem n).mpr (.inr ⟨hne, .inr rfl⟩), Nat.ne_of_gt (hbefore i hi)⟩
    · obtain ⟨w, hw⟩ := List.exists_mem_of_ne_nil _ hne
      exact ⟨w, (h.mem w).mpr (.inr ⟨hne, .inl hw⟩), Nat.ne_of_lt (hbefore w hw)⟩

end DuplicateSearch

theorem duplicatePlaces_sound {u : ClassUnion} {places : List Nat}
    (h : duplicatePlaces u = .ok places) :
    places.Nodup ∧ (∀ i ∈ places, i < u.elements.length) ∧
      ∀ i ∈ places, ∃ j ∈ places, j ≠ i := by
  simp only [duplicatePlaces, bind, Except.bind] at h
  split at h
  · simp at h
  rename_i search hsearch
  cases h
  have hstart : DuplicateSearch.Sound 0 ⟨.empty, []⟩ :=
    ⟨ClassSet.ownedBy_empty, List.nodup_nil, by simp, by simp⟩
  have hs : search.Sound u.elements.length := by
    refine DuplicateSearch.foldlM_steps (Q := fun n result => ∀ s, result = .ok s → s.Sound n)
      (fun _ _ _ => nofun) (fun n e s _ hs s' h => (hs s rfl).step h) ?_ search hsearch
    rintro s ⟨⟩
    exact hstart
  exact ⟨hs.nodup, hs.places, hs.several⟩

/-- The further places of a finding are added in order. -/
theorem foldl_addSecondary (source : DelimitedPattern) (rest : List ClassElement)
    (f : Finding) :
    rest.foldl (fun f e => f.addSecondary (source.locationOf e.span) (some duplicateMessage)) f =
      ⟨f.primary, f.message, f.secondaries ++
        rest.map fun e => ⟨source.locationOf e.span, some duplicateMessage⟩⟩ := by
  induction rest generalizing f with
  | nil => simp
  | cons e rest ih =>
    rw [List.foldl_cons, ih]
    simp [Finding.addSecondary]

end PhpSyntax.Pattern
