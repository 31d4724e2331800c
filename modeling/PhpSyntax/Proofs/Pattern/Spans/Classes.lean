import PhpSyntax.Proofs.Pattern.Classes
import PhpSyntax.Proofs.Pattern.Spans.Readings

namespace PhpSyntax.Pattern

open Reading Reader PhpSyntax.Pattern.Part

variable {n : Nat} {r : Reader} {start : Nat}

theorem Tiled.row {start stop : Nat} {cs : List SourceChar} (h : Tiled start cs stop) :
    Row start (cs.map (·.span)) stop := by
  induction cs generalizing start with
  | nil => exact Nat.le_of_eq h
  | cons c cs ih => exact ⟨Nat.le_of_eq h.1.symm, by rw [h.1]; exact Nat.le_of_lt h.2.1, ih h.2.2⟩

theorem digits_yields (base limit : Nat) : Yields n r (digits base limit) fun _ _ => True :=
  .silent (digits_moves base limit) rfl

theorem hexEscape_yields : Yields n r hexEscape fun _ _ => True := by
  refine .bind (.eat _) fun braced r₁ _ _ => ?_
  split
  · exact .bind (digits_yields 16 2) fun _ _ _ _ => .pure fun _ => trivial
  · refine .bind (.takeRun _) fun written r₂ _ _ => ?_
    split
    · exact .bind (.expected _) fun _ _ _ _ => .pure fun _ => trivial
    · refine .bind (.expect _) fun found r₃ _ _ => ?_
      split
      · exact .pure fun _ => trivial
      · exact .pure fun _ => trivial

theorem unicodeEscape_yields : Yields n r unicodeEscape fun _ _ => True := by
  refine .getSkip fun _ => ?_
  split
  · exact .bind (.expected _) fun _ _ _ _ => .pure fun _ => trivial
  · split
    · exact .skip fun _ => .pure fun _ => trivial
    · exact .pure fun _ => trivial

theorem controlEscape_yields (hstart : start ≤ r.lastStop) :
    Yields n r (controlEscape start) fun _ _ => True := by
  refine .next? fun h => ?_
  have hstart := Nat.le_trans hstart h.le
  split
  · split
    · exact .pure fun _ => trivial
    · exact .bind (.reportFrom _ hstart) fun _ _ _ _ => .pure fun _ => trivial
  · exact .bind (.reportFrom _ hstart) fun _ _ _ _ => .pure fun _ => trivial

theorem codePoint_yields (letter : Char) (hstart : start ≤ r.lastStop) :
    Yields n r (codePoint letter start) fun _ _ => True := by
  unfold codePoint
  split
  · exact .pure fun _ => trivial
  · split
    · exact .bind (digits_yields 8 2) fun _ _ _ _ => .pure fun _ => trivial
    split
    · exact hexEscape_yields
    split
    · exact unicodeEscape_yields
    split
    · exact controlEscape_yields hstart
    split
    · exact .pure fun _ => trivial
    · exact .bind (.reportFrom _ hstart) fun _ _ _ _ => .pure fun _ => trivial

theorem characterEscape_yields (hstart : start ≤ r.lastStop) :
    Yields n r (characterEscape start) fun a r' => ∀ c ∈ a, c.span = ⟨start, r'.lastStop⟩ := by
  refine .next? fun h => ?_
  have hstart := Nat.le_trans hstart h.le
  split
  · exact .pure fun _ => nofun
  · refine .bind (codePoint_yields _ hstart) fun code r₁ h₁ _ => ?_
    split
    · exact .spanFrom (Nat.le_trans hstart h₁.le) (.pure fun _ => by simp)
    · exact .pure fun _ => nofun

theorem property_yields : Yields n r property fun _ _ => True := by
  refine .bind (.eat _) fun braced r₁ _ _ => ?_
  split
  · refine .bind (.takeRun _) fun name r₂ _ _ => ?_
    exact .bind (.expect _) fun _ _ _ _ => .pure fun _ => trivial
  · refine .next? fun _ => ?_
    split
    · exact .pure fun _ => trivial
    · exact .bind (.expected _) fun _ _ _ _ => .pure fun _ => trivial

theorem escapedClass_yields (letter : Char) (hstart : start ≤ r.lastStop) :
    Yields n r (escapedClass start letter) fun e r' => e.span = ⟨start, r'.lastStop⟩ := by
  refine .skip fun h => ?_
  have hstart := Nat.le_trans hstart h.le
  have hend : ∀ (name : Option String) (r₁ : Reader), Passes n (r.skip 1) r₁ → True →
      Yields n r₁ (do return (⟨letter, name, ← Reading.spanFrom start⟩ : EscapedClass))
        fun e r' => e.span = ⟨start, r'.lastStop⟩ := fun name r₁ h₁ _ =>
    .spanFrom (Nat.le_trans hstart h₁.le) (.pure fun _ => rfl)
  dsimp only
  split
  · exact .bind property_yields hend
  · exact .bind (.pure fun _ => trivial) hend

theorem quotation_yields : Yields n r quotation fun cs r' =>
    Row r.lastStop (cs.map Character.span) r'.lastStop ∧
      ∀ c ∈ cs, c.span.start < c.span.stop := by
  refine .skip fun h => .getSkip fun h' => .pure fun _ => ?_
  have ht := h.fits.stands.tiled_take (quotedLength (r.skip 2).rest).1
  refine ⟨?_, fun c hc => ?_⟩
  · have hle := ((h.fits.skip (quotedLength (r.skip 2).rest).1).fits.skip
      (quotedLength (r.skip 2).rest).2).le
    rw [skip_skip _ (quotedLength (r.skip 2).rest).1] at hle
    simpa [Function.comp_def] using ht.row.widen h.le hle
  · obtain ⟨d, hd, rfl⟩ := List.mem_map.mp hc
    exact (ht.mem d hd).2.1

structure AtomFits (r : Reader) (e : ClassElement) (r' : Reader) : Prop where
  span : e.span = ⟨r.lastStop, r'.lastStop⟩
  lt : r.lastStop < r'.lastStop
  leaf : (ofElement e).children = []

theorem AtomFits.between {e : ClassElement} {r' : Reader} (h : AtomFits r e r') :
    Between r.lastStop [member e] r'.lastStop :=
  .element (h.leaf ▸ .nil (Nat.le_of_lt h.lt)) h.lt h.span

theorem classAtom_yields : Yields n r classAtom fun a r' => ∀ e ∈ a, AtomFits r e r' := by
  refine .get fun hr => ?_
  dsimp only
  rw [hr.offset_eq]
  split
  · exact .pure fun _ => nofun
  · rename_i hhead
    have hne : r.rest ≠ [] := rest_ne_nil_of_peek hhead
    have hlt := hr.lastStop_lt_skip hne Nat.one_pos
    have hstart := Nat.le_of_lt hlt
    refine .skip fun _ => .get fun _ => ?_
    split
    · exact .bind (.expected _) fun _ _ _ _ => .pure fun _ => nofun
    split
    · refine .bind (escapedClass_yields _ hstart) fun e r₁ h₁ hspan => .pure fun _ => ?_
      simpa using ⟨hspan, Nat.lt_of_lt_of_le hlt h₁.le, rfl⟩
    split
    · refine .skip fun h₁ => .spanFrom (Nat.le_trans hstart h₁.le) (.pure fun _ => ?_)
      simpa using ⟨rfl, Nat.lt_of_lt_of_le hlt h₁.le, rfl⟩
    split
    · refine .bind (digits_yields 8 3) fun code r₁ h₁ _ => ?_
      refine .spanFrom (Nat.le_trans hstart h₁.le) (.pure fun _ => ?_)
      simpa using ⟨rfl, Nat.lt_of_lt_of_le hlt h₁.le, rfl⟩
    · refine .bind (characterEscape_yields hstart) fun c r₁ h₁ hspan => .pure fun _ => ?_
      rintro e he
      obtain ⟨d, hd, rfl⟩ := Option.mem_map.mp he
      exact ⟨hspan d hd, Nat.lt_of_lt_of_le hlt h₁.le, rfl⟩
  · rename_i c _ hhead
    refine .bind (.plainCharacter c (rest_ne_nil_of_peek hhead)) fun a r₁ h₁ h => .pure fun _ => ?_
    simpa using ⟨h.1, h.2, rfl⟩

theorem classMember_yields : Yields n r classMember fun a r' =>
    Between r.lastStop (a.toList.map member) r'.lastStop := by
  refine .bind classAtom_yields fun a r₁ h₁ hfirst => ?_
  split
  · rename_i first
    have hfirst := hfirst _ rfl
    refine .get fun _ => ?_
    split
    · refine .skip fun h₂ => .bind classAtom_yields fun b r₃ h₃ hlast => ?_
      have hle := Nat.le_trans h₂.le h₃.le
      split
      · rename_i last
        have hlast := hlast _ rfl
        have hfirst_span : first.span = ⟨r.lastStop, r₁.lastStop⟩ := hfirst.span
        have hlast_span : last.span = ⟨(r₁.skip 1).lastStop, r₃.lastStop⟩ := hlast.span
        have hfirst_between : Between r.lastStop [character first] r₁.lastStop :=
          .wrap (.nil h₁.le) nofun hfirst_span
        have hlast_between : Between r₁.lastStop [character last] r₃.lastStop :=
          .widen (.wrap (.nil h₃.le) nofun hlast_span) h₂.le (Nat.le_refl _)
        refine .pure fun _ => .element ?_ (Nat.lt_of_lt_of_le hfirst.lt hle) ?_
        · exact hfirst_between.append hlast_between
        · simp [ClassElement.span, hfirst_span, hlast_span]
      · exact .pure fun _ => hfirst.between.widen (Nat.le_refl _) hle
    · exact .pure fun _ => hfirst.between
  · refine .pure fun _ => ?_
    cases a with
    | none => exact .nil h₁.le
    | some e => exact (hfirst e rfl).between

def BracketsYield (n : Nat) (brackets : Reading CharacterClass) : Prop :=
  ∀ r, r.rest ≠ [] → Yields n r brackets fun c r' =>
    Between r.lastStop [characterClass c] r'.lastStop ∧ c.span.start < c.span.stop

theorem innerClass_yields {brackets : Reading CharacterClass} (hb : BracketsYield n brackets)
    (hne : r.rest ≠ []) : Yields n r (innerClass brackets) fun e r' =>
      Between r.lastStop [member e] r'.lastStop := by
  refine .get fun hr => ?_
  rw [hr.offset_eq]
  split
  · rename_i hposix
    have hlt := hr.lastStop_lt_skip hne (posix_length hposix)
    exact .skip fun h => .spanFrom h.le (.pure fun _ => .element (.nil h.le) hlt rfl)
  · refine .bind (hb r hne) fun c r₁ h₁ h => .pure fun _ => ?_
    exact .of_element h.1 h.2

theorem leadingBracket_yields : Yields n r leadingBracket fun es r' =>
    Between r.lastStop (es.map member) r'.lastStop := by
  refine .get fun hr => ?_
  split
  · rename_i hsees
    have hne : r.rest ≠ [] := rest_ne_nil_of_head (of_decide_eq_true hsees)
    refine .bind (.plainCharacter _ hne) fun c r₁ h₁ h => .pure fun _ => ?_
    exact .element (.nil h₁.le) h.2 h.1
  · exact .pure fun _ => .nil (Nat.le_refl _)

/-- The operands of a draft follow each other from an offset, and then the members of the current
operand up to another. After an operand stands an operator. -/
structure ClassDraft.Between (d : ClassDraft) (start stop : Nat) : Prop where
  operands : Part.Between start (d.operands.map .union) d.start
  elements : Part.Between d.start (d.elements.map member) stop
  lt : d.operands ≠ [] → start < d.start

namespace ClassDraft.Between

variable {d : ClassDraft} {stop stop' : Nat}

theorem le (h : d.Between start stop) : start ≤ stop :=
  Nat.le_trans h.operands.le h.elements.le

theorem widen (h : d.Between start stop) (hle : stop ≤ stop') : d.Between start stop' :=
  { h with elements := h.elements.widen (Nat.le_refl _) hle }

theorem add {es : List ClassElement} (h : d.Between start stop)
    (hes : Part.Between stop (es.map member) stop') : (d.add es).Between start stop' :=
  { h with elements := by simpa [ClassDraft.add] using h.elements.append hes }

/-- The current operand ends, and after the operator another one starts. -/
theorem next (h : d.Between start stop) (flags : Flags) {after : Nat} (hlt : stop < after) :
    ClassDraft.Between ⟨d.operands ++ [⟨d.elements, flags, ⟨d.start, stop⟩⟩], after, []⟩
      start after := by
  have hoperand : Part.Between d.start [.union ⟨d.elements, flags, ⟨d.start, stop⟩⟩] stop :=
    .wrap h.elements nofun rfl
  refine ⟨?_, .nil (Nat.le_refl _), fun _ => Nat.lt_of_le_of_lt h.le hlt⟩
  simpa using (h.operands.append hoperand).widen (Nat.le_refl _) (Nat.le_of_lt hlt)

theorem union (h : d.Between start stop) (flags : Flags) :
    Part.Between start [.union (d.union flags start stop)] stop := by
  refine .wrap ?_ nofun rfl
  simp only [children, ClassDraft.union]
  split
  · rename_i hnone
    have hnone : d.operands = [] := List.isEmpty_iff.mp hnone
    have hstart : start ≤ d.start := h.operands.le
    exact h.elements.widen hstart (Nat.le_refl _)
  · rename_i hsome
    have hlt := h.lt (by simpa using hsome)
    have hoperand : Part.Between d.start [.union ⟨d.elements, flags, ⟨d.start, stop⟩⟩] stop :=
      .wrap h.elements nofun rfl
    refine .element ?_ (Nat.lt_of_lt_of_le hlt h.elements.le) rfl
    simpa [children, ofElement] using h.operands.append hoperand

end ClassDraft.Between

theorem skipClassBlanks_yields : Yields n r skipClassBlanks fun _ _ => True := by
  refine .get fun _ => ?_
  split
  · exact .silent (.skip _) rfl
  · exact .pure fun _ => trivial

theorem classMembers_yields {brackets : Reading CharacterClass} (hb : BracketsYield n brackets)
    (rounds : Nat) (draft : ClassDraft) (hdraft : draft.Between start r.lastStop) :
    Yields n r (classMembers brackets rounds draft) fun result r' =>
      result.1.Between start result.2 ∧ result.2 ≤ r'.lastStop := by
  induction rounds generalizing r draft with
  | zero =>
    refine .get fun hr => .pure fun _ => ?_
    rw [hr.offset_eq]
    exact ⟨hdraft, Nat.le_refl _⟩
  | succ rounds ih =>
    refine .bind skipClassBlanks_yields fun _ r₁ h₁ _ => .get fun hr₁ => ?_
    have hdraft₁ := hdraft.widen h₁.le
    rw [hr₁.offset_eq]
    dsimp only
    split
    · exact .bind (.expected _) fun _ _ h₂ _ => .pure fun _ => ⟨hdraft₁, h₂.le⟩
    · exact .skip fun h₂ => .pure fun _ => ⟨hdraft₁, h₂.le⟩
    · rename_i hhead _
      have hlt := hr₁.lastStop_lt_skip (rest_ne_nil_of_peek hhead) (k := 2) (by decide)
      refine .skip fun h₂ => .get fun hr₂ => ?_
      rw [hr₂.offset_eq]
      exact ih _ (hdraft₁.next _ hlt)
    · rename_i hhead
      refine .bind (innerClass_yields hb (rest_ne_nil_of_peek hhead)) fun e r₂ h₂ he => ?_
      exact ih _ (hdraft₁.add he)
    · refine .bind quotation_yields fun cs r₂ h₂ hcs => ih _ (hdraft₁.add ?_)
      simpa [Function.comp_def] using Part.Between.members hcs.1 hcs.2
    · exact .skip fun h₂ => ih _ (hdraft₁.widen h₂.le)
    · refine .bind classMember_yields fun e r₂ h₂ he => ih _ (hdraft₁.add he)

theorem bracketsWith_yields {brackets : Reading CharacterClass} (hb : BracketsYield n brackets) :
    BracketsYield (n + 1) (bracketsWith brackets) := by
  intro r hne
  refine .get fun hr => ?_
  rw [hr.offset_eq]
  refine .consume hne Nat.one_pos fun hlt => .bind (.eat _) fun negated r₁ h₁ _ => ?_
  refine .get fun hr₁ => ?_
  rw [hr₁.offset_eq]
  refine .bind leadingBracket_yields fun first r₂ h₂ hfirst => .get fun _ => ?_
  have hdraft : ClassDraft.Between ⟨[], r₁.lastStop, first⟩ r₁.lastStop r₂.lastStop :=
    ⟨.nil (Nat.le_refl _), hfirst, fun h => (h rfl).elim⟩
  refine .bind (classMembers_yields hb _ _ hdraft) fun result r₃ h₃ hresult => .get fun _ => ?_
  have hle := Nat.le_trans h₁.le (Nat.le_trans h₂.le h₃.le)
  have hstart := Nat.lt_of_lt_of_le hlt hle
  refine .pure fun _ => ⟨.wrap ?_ nofun ?_, ?_⟩
  · exact (hresult.1.union r₃.flags).widen (Nat.le_trans (Nat.le_of_lt hlt) h₁.le) hresult.2
  · exact Fits.spanFrom_eq (Nat.le_of_lt hstart)
  · rw [Fits.spanFrom_eq (Nat.le_of_lt hstart)]
    exact hstart

end PhpSyntax.Pattern
