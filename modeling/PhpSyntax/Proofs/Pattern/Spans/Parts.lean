import PhpSyntax.Proofs.Pattern.Visit

namespace PhpSyntax.Pattern

def Row (start : Nat) : List Span → Nat → Prop
  | [], stop => start ≤ stop
  | s :: ss, stop => start ≤ s.start ∧ s.start ≤ s.stop ∧ Row s.stop ss stop

namespace Row

variable {a b c a' b' : Nat} {ss ts : List Span}

theorem le (h : Row a ss b) : a ≤ b := by
  induction ss generalizing a with
  | nil => exact h
  | cons s ss ih => exact Nat.le_trans (Nat.le_trans h.1 h.2.1) (ih h.2.2)

theorem widen (h : Row a ss b) (ha : a' ≤ a) (hb : b ≤ b') : Row a' ss b' := by
  induction ss generalizing a a' with
  | nil => exact Nat.le_trans (Nat.le_trans ha h) hb
  | cons s ss ih => exact ⟨Nat.le_trans ha h.1, h.2.1, ih h.2.2 (Nat.le_refl _)⟩

theorem append_iff : Row a (ss ++ ts) c ↔ ∃ b, Row a ss b ∧ Row b ts c := by
  constructor
  · intro h
    induction ss generalizing a with
    | nil => exact ⟨a, Nat.le_refl a, h⟩
    | cons s ss ih =>
      obtain ⟨b, hs, ht⟩ := ih h.2.2
      exact ⟨b, ⟨h.1, h.2.1, hs⟩, ht⟩
  · rintro ⟨b, hs, ht⟩
    induction ss generalizing a with
    | nil => exact ht.widen hs (Nat.le_refl _)
    | cons s ss ih => exact ⟨hs.1, hs.2.1, ih hs.2.2⟩

/-- A stretch of a row lies between its ends. -/
theorem mem (h : Row a ss b) : ∀ s ∈ ss, a ≤ s.start ∧ s.start ≤ s.stop ∧ s.stop ≤ b := by
  induction ss generalizing a with
  | nil => nofun
  | cons s ss ih =>
    refine List.forall_mem_cons.mpr ⟨⟨h.1, h.2.1, h.2.2.le⟩, fun t ht => ?_⟩
    have := ih h.2.2 t ht
    exact ⟨Nat.le_trans (Nat.le_trans h.1 h.2.1) this.1, this.2⟩

theorem pairwise (h : Row a ss b) : ss.Pairwise fun s t => s.stop ≤ t.start := by
  induction ss generalizing a with
  | nil => exact .nil
  | cons s ss ih => exact .cons (fun t ht => (h.2.2.mem t ht).1) (ih h.2.2)

end Row

namespace Part

def span : Part → Span
  | regex tree => tree.span
  | sequence _ s => s
  | disjunction _ s => s
  | group _ _ s => s
  | conditional _ _ _ s => s
  | repetition _ _ s => s
  | character c => c.span
  | dot s => s
  | boundary _ s => s
  | backReference _ s => s
  | escapedClass e => e.span
  | characterClass c => c.span
  | union u => u.span
  | member e => e.span
  | range r => r.span
  | posix p => p.span
  | intersection _ s => s

@[simp]
theorem span_regex (tree : Regex) : (regex tree).span = tree.span := rfl

@[simp]
theorem span_member (e : ClassElement) : (member e).span = e.span := rfl

@[simp]
theorem span_ofRegex (tree : Regex) : (ofRegex tree).span = tree.span := by
  cases tree <;> rfl

@[simp]
theorem span_ofElement (e : ClassElement) : (ofElement e).span = e.span := by
  cases e <;> rfl

/-- The parts directly inside follow each other inside, and a member of a class is not empty. -/
structure Nests (part : Part) : Prop where
  row : Row part.span.start (part.children.map span) part.span.stop
  member : ∀ e, part = member e → e.span.start < e.span.stop

/-- A part and the parts inside it, at any depth, nest. -/
def Placed (part : Part) : Prop :=
  ∀ p ∈ part.visit (fun _ => true), p.Nests

theorem placed_iff (part : Part) : part.Placed ↔ part.Nests ∧ ∀ c ∈ part.children, c.Placed :=
  everywhere_iff

theorem Placed.le {part : Part} (h : part.Placed) : part.span.start ≤ part.span.stop :=
  (placed_iff part).mp h |>.1.row.le

/-- Everything inside a part lies inside its stretch. -/
theorem Placed.inside {part p : Part} (h : part.Placed) (hp : p ∈ part.visit fun _ => true) :
    part.span.start ≤ p.span.start ∧ p.span.stop ≤ part.span.stop := by
  induction part using visit.induct with
  | case1 part ih =>
    obtain ⟨hnests, hin⟩ := (placed_iff part).mp h
    obtain rfl | ⟨c, hc, hp⟩ := mem_visit.mp hp
    · exact ⟨Nat.le_refl _, Nat.le_refl _⟩
    · have hinner := ih c hc (hin c hc) hp
      have houter := hnests.row.mem c.span (List.mem_map_of_mem hc)
      exact ⟨Nat.le_trans houter.1 hinner.1, Nat.le_trans hinner.2 houter.2.2⟩

structure Between (start : Nat) (parts : List Part) (stop : Nat) : Prop where
  row : Row start (parts.map span) stop
  placed : ∀ p ∈ parts, p.Placed

namespace Between

variable {a b c a' b' : Nat} {ps qs : List Part} {part : Part}

theorem le (h : Between a ps b) : a ≤ b :=
  h.row.le

theorem widen (h : Between a ps b) (ha : a' ≤ a) (hb : b ≤ b') : Between a' ps b' :=
  ⟨h.row.widen ha hb, h.placed⟩

theorem nil (h : a ≤ b) : Between a [] b :=
  ⟨h, fun _ hp => absurd hp List.not_mem_nil⟩

theorem append_iff : Between a (ps ++ qs) c ↔ ∃ b, Between a ps b ∧ Between b qs c := by
  constructor
  · rintro ⟨hrow, hplaced⟩
    rw [List.map_append] at hrow
    rw [List.forall_mem_append] at hplaced
    obtain ⟨b, hp, hq⟩ := Row.append_iff.mp hrow
    exact ⟨b, ⟨hp, hplaced.1⟩, ⟨hq, hplaced.2⟩⟩
  · rintro ⟨b, hp, hq⟩
    refine ⟨?_, List.forall_mem_append.mpr ⟨hp.placed, hq.placed⟩⟩
    rw [List.map_append]
    exact Row.append_iff.mpr ⟨b, hp.row, hq.row⟩

theorem append (hp : Between a ps b) (hq : Between b qs c) : Between a (ps ++ qs) c :=
  append_iff.mpr ⟨b, hp, hq⟩

theorem single (h : part.Placed) (ha : a ≤ part.span.start) (hb : part.span.stop ≤ b) :
    Between a [part] b :=
  ⟨⟨ha, h.le, hb⟩, by simpa using h⟩

theorem of_single (h : Between a [part] b) :
    part.Placed ∧ a ≤ part.span.start ∧ part.span.stop ≤ b :=
  ⟨h.placed part (.head _), h.row.1, h.row.2.2⟩

/-- A part is placed if the parts inside it are. -/
theorem around (h : Between part.span.start part.children part.span.stop)
    (hm : ∀ e, part ≠ member e) : part.Placed :=
  (placed_iff part).mpr ⟨⟨h.row, fun e he => (hm e he).elim⟩, h.placed⟩

/-- A part that has the stretch of what is inside. -/
theorem wrap (h : Between a part.children b) (hm : ∀ e, part ≠ member e)
    (hspan : part.span = ⟨a, b⟩) : Between a [part] b := by
  have hplaced : part.Placed := around (by rw [hspan]; exact h) hm
  exact single hplaced (hspan ▸ Nat.le_refl a) (hspan ▸ Nat.le_refl b)

theorem regex_iff {tree : Regex} : Between a [regex tree] b ↔ Between a [ofRegex tree] b := by
  have hplaced : (regex tree).Placed ↔ (ofRegex tree).Placed := by
    rw [placed_iff]
    simp only [children, List.mem_singleton, forall_eq, and_iff_right_iff_imp]
    intro h
    have hle : tree.span.start ≤ tree.span.stop := by simpa only [span_ofRegex] using h.le
    refine ⟨?_, ?_⟩
    · simp only [children, List.map_cons, List.map_nil, span_ofRegex, span_regex, Row]
      exact ⟨Nat.le_refl _, hle, Nat.le_refl _⟩
    · rintro e ⟨⟩
  constructor
  · intro h
    obtain ⟨hp, ha, hb⟩ := h.of_single
    exact single (hplaced.mp hp) (by simpa using ha) (by simpa using hb)
  · intro h
    obtain ⟨hp, ha, hb⟩ := h.of_single
    exact single (hplaced.mpr hp) (by simpa using ha) (by simpa using hb)

/-- A regular expression that has the stretch of what is inside. -/
theorem node {tree : Regex} (h : Between a (ofRegex tree).children b)
    (hspan : tree.span = ⟨a, b⟩) : Between a [regex tree] b := by
  refine regex_iff.mpr (wrap h ?_ ?_)
  · intro e he
    cases tree <;> cases he
  · rw [span_ofRegex, hspan]

/-- A regular expression with nothing inside. -/
theorem leaf {tree : Regex} (h : (ofRegex tree).children = []) (hle : a ≤ b)
    (hspan : tree.span = ⟨a, b⟩) : Between a [regex tree] b :=
  node (h ▸ nil hle) hspan

theorem of_element {e : ClassElement} (h : Between a [ofElement e] b)
    (hlt : e.span.start < e.span.stop) : Between a [member e] b := by
  obtain ⟨hp, ha, hb⟩ := h.of_single
  rw [span_ofElement] at ha hb
  have hrow : Row e.span.start ([ofElement e].map span) e.span.stop := by
    simp [Row, Nat.le_of_lt hlt]
  refine single ((placed_iff _).mpr ⟨⟨hrow, ?_⟩, by simpa [children] using hp⟩) ha hb
  rintro d ⟨⟩
  exact hlt

/-- A member of a class that has the stretch of what is inside. -/
theorem element {e : ClassElement} (h : Between a (ofElement e).children b) (hlt : a < b)
    (hspan : e.span = ⟨a, b⟩) : Between a [member e] b := by
  refine of_element (wrap h ?_ ?_) (by rw [hspan]; exact hlt)
  · intro d hd
    cases e <;> cases hd
  · rw [span_ofElement, hspan]

theorem of_row {α : Type} {f : α → Part} {as : List α} (hrow : Row a (as.map fun x => (f x).span) b)
    (hplaced : ∀ x ∈ as, (f x).Placed) : Between a (as.map f) b :=
  ⟨by simpa [Function.comp_def] using hrow, by simpa using hplaced⟩

/-- Characters that follow each other are members of a class. -/
theorem members {cs : List Character} (hrow : Row a (cs.map Character.span) b)
    (hlt : ∀ c ∈ cs, c.span.start < c.span.stop) :
    Between a (cs.map fun c => member (.character c)) b :=
  of_row hrow fun c hc =>
    have h : Between c.span.start [member (.character c)] c.span.stop :=
      element (nil (Nat.le_of_lt (hlt c hc))) (hlt c hc) rfl
    h.of_single.1

/-- Characters that follow each other are items of a sequence. -/
theorem items {cs : List Character} (hrow : Row a (cs.map Character.span) b)
    (hlt : ∀ c ∈ cs, c.span.start < c.span.stop) :
    Between a (cs.map fun c => regex (.character c)) b :=
  of_row hrow fun c hc =>
    have h : Between c.span.start [regex (.character c)] c.span.stop :=
      leaf rfl (Nat.le_of_lt (hlt c hc)) rfl
    h.of_single.1

end Between

end Part

end PhpSyntax.Pattern
