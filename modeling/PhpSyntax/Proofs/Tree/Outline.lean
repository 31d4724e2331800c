import Mathlib.Data.List.Basic
import PhpSyntax.Proofs.Text.Quoted
import PhpSyntax.Proofs.Tree.Kind
import PhpSyntax.Tree.Equivalence
import PhpSyntax.Tree.Outline

/-!
An outline determines the shape of a tree and the texts of its leaves, and nothing else: the blanks
in front of a line tell where the slots of a node end, and the rest of the line tells what is in
the slot. Equivalence compares just this.
-/

namespace PhpSyntax

/-- What is left of a tree without the places, kinds and surroundings of its tokens. -/
inductive Skeleton where
  | leaf (kind : Kind) (text : String)
  | node (kind : Kind) (slots : List (Option Skeleton))

namespace Tree

variable {isShown : Char → Bool} {depth : Nat}

mutual

def skeleton : Tree → Skeleton
  | leaf k t => .leaf k t.text
  | node k cs => .node k (slotSkeletons cs)

def slotSkeletons : List (Option Tree) → List (Option Skeleton)
  | [] => []
  | none :: cs => none :: slotSkeletons cs
  | some t :: cs => some t.skeleton :: slotSkeletons cs

end

mutual

/-- Trees are equivalent if nothing but the places, kinds and surroundings of tokens differs. -/
theorem equivalent_iff_skeleton : ∀ a b : Tree,
    a.equivalent b = true ↔ a.skeleton = b.skeleton
  | leaf k t, leaf l u => by simp [equivalent, skeleton]
  | node k cs, node l ds => by
    simp [equivalent, skeleton, equivalentSlots_iff_skeletons cs ds]
  | leaf .., node .. => by simp [equivalent, skeleton]
  | node .., leaf .. => by simp [equivalent, skeleton]

theorem equivalentSlots_iff_skeletons : ∀ cs ds : List (Option Tree),
    equivalentSlots cs ds = true ↔ slotSkeletons cs = slotSkeletons ds
  | [], [] => by simp [equivalentSlots, slotSkeletons]
  | none :: cs, none :: ds => by
    simp [equivalentSlots, slotSkeletons, equivalentSlots_iff_skeletons cs ds]
  | some a :: cs, some b :: ds => by
    simp [equivalentSlots, slotSkeletons, equivalent_iff_skeleton a b,
      equivalentSlots_iff_skeletons cs ds]
  | [], none :: _ => by simp [equivalentSlots, slotSkeletons]
  | [], some _ :: _ => by simp [equivalentSlots, slotSkeletons]
  | none :: _, [] => by simp [equivalentSlots, slotSkeletons]
  | some _ :: _, [] => by simp [equivalentSlots, slotSkeletons]
  | none :: _, some _ :: _ => by simp [equivalentSlots, slotSkeletons]
  | some _ :: _, none :: _ => by simp [equivalentSlots, slotSkeletons]

end

mutual

/-- The lines of a tree are made of its kinds and texts. -/
theorem linesAt_eq_of_skeleton : ∀ (depth : Nat) (a b : Tree), a.skeleton = b.skeleton →
    a.linesAt isShown depth = b.linesAt isShown depth
  | depth, leaf k t, leaf l u => by
    intro h
    simp only [skeleton, Skeleton.leaf.injEq] at h
    simp only [linesAt, h]
  | depth, node k cs, node l ds => by
    intro h
    simp only [skeleton, Skeleton.node.injEq] at h
    simp only [linesAt, h.1, slotLinesAt_eq_of_skeletons (depth + 1) cs ds h.2]
  | _, leaf .., node .. => by simp [skeleton]
  | _, node .., leaf .. => by simp [skeleton]

theorem slotLinesAt_eq_of_skeletons : ∀ (depth : Nat) (cs ds : List (Option Tree)),
    slotSkeletons cs = slotSkeletons ds →
      slotLinesAt isShown depth cs = slotLinesAt isShown depth ds
  | _, [], [] => fun _ => rfl
  | depth, none :: cs, none :: ds => by
    intro h
    simp only [slotSkeletons, List.cons.injEq, true_and] at h
    simp only [slotLinesAt, slotLinesAt_eq_of_skeletons depth cs ds h]
  | depth, some a :: cs, some b :: ds => by
    intro h
    simp only [slotSkeletons, List.cons.injEq, Option.some.injEq] at h
    simp only [slotLinesAt, linesAt_eq_of_skeleton depth a b h.1,
      slotLinesAt_eq_of_skeletons depth cs ds h.2]
  | _, [], none :: _ => by simp [slotSkeletons]
  | _, [], some _ :: _ => by simp [slotSkeletons]
  | _, none :: _, [] => by simp [slotSkeletons]
  | _, some _ :: _, [] => by simp [slotSkeletons]
  | _, none :: _, some _ :: _ => by simp [slotSkeletons]
  | _, some _ :: _, none :: _ => by simp [slotSkeletons]

end

section Lines

def headline (isShown : Char → Bool) : Tree → String
  | leaf k t => k.name ++ " " ++ Text.quoted isShown t.text
  | node k _ => k.name

def blanks (line : String) : Nat :=
  (line.toList.takeWhile (· = ' ')).length

/-- Lists are split at the first occurrence of an element in one way only. -/
theorem append_cons_inj {α : Type} {a : α} {as bs r s : List α} (ha : a ∉ as) (hb : a ∉ bs)
    (h : as ++ a :: r = bs ++ a :: s) : as = bs ∧ r = s := by
  induction as generalizing bs with
  | nil =>
    cases bs with
    | nil => simpa using h
    | cons b bs => exact absurd (List.cons.inj h).1 (List.ne_of_not_mem_cons hb)
  | cons c as ih =>
    cases bs with
    | nil => exact absurd (List.cons.inj h).1.symm (List.ne_of_not_mem_cons ha)
    | cons b bs =>
      obtain ⟨rfl, hrest⟩ := List.cons.inj h
      have ha' : a ∉ as := List.not_mem_of_not_mem_cons ha
      have hb' : a ∉ bs := List.not_mem_of_not_mem_cons hb
      obtain ⟨rfl, rfl⟩ := ih ha' hb' hrest
      exact ⟨rfl, rfl⟩

theorem blank_notMem_name (k : Kind) : ' ' ∉ k.name.toList := fun h =>
  absurd (Kind.isAlpha_of_mem_name h) (by decide)

theorem leafLine_toList (isShown : Char → Bool) (k : Kind) (text : String) :
    (k.name ++ " " ++ Text.quoted isShown text).toList =
      k.name.toList ++ ' ' :: (Text.quoted isShown text).toList := by
  simp

/-- The headline of a leaf is not the name of a kind. -/
theorem leafLine_ne_name (isShown : Char → Bool) (k l : Kind) (text : String) :
    k.name ++ " " ++ Text.quoted isShown text ≠ l.name := by
  intro h
  have hmem : ' ' ∈ (k.name ++ " " ++ Text.quoted isShown text).toList := by
    rw [leafLine_toList]
    simp
  exact blank_notMem_name l (h ▸ hmem)

/-- The headline of a leaf tells its kind and its text. -/
theorem leafLine_inj {k l : Kind} {a b : String}
    (h : k.name ++ " " ++ Text.quoted isShown a = l.name ++ " " ++ Text.quoted isShown b) :
    k = l ∧ a = b := by
  have h := congrArg String.toList h
  rw [leafLine_toList, leafLine_toList] at h
  obtain ⟨hname, hquoted⟩ := append_cons_inj (blank_notMem_name k) (blank_notMem_name l) h
  have hname : k.name = l.name := String.toList_inj.mp hname
  have hquoted : Text.quoted isShown a = Text.quoted isShown b := String.toList_inj.mp hquoted
  exact ⟨Kind.name_injective hname, Text.quoted_injective isShown hquoted⟩

/-- A headline starts with a letter. -/
theorem headline_toList (isShown : Char → Bool) (t : Tree) :
    ∃ c cs, (t.headline isShown).toList = c :: cs ∧ c.isAlpha := by
  cases t with
  | leaf k u =>
    obtain ⟨c, cs, hname, hc⟩ := k.name_eq_cons
    exact ⟨c, cs ++ ' ' :: (Text.quoted isShown u.text).toList, by simp [headline, hname], hc⟩
  | node k ds => exact k.name_eq_cons

/-- No tree is shown as a dash. -/
theorem headline_ne_dash (isShown : Char → Bool) (t : Tree) : t.headline isShown ≠ "-" := by
  intro h
  obtain ⟨c, cs, hline, hc⟩ := headline_toList isShown t
  have hdash : c = '-' := by
    rw [h] at hline
    exact (List.cons.inj hline).1.symm
  exact absurd (hdash ▸ hc) (by decide)

/-- The blanks in front of a text that starts with another character. -/
theorem blanks_indent {line : String} {c : Char} {cs : List Char} (h : line.toList = c :: cs)
    (hc : c ≠ ' ') (depth : Nat) : blanks (indent depth ++ line) = 2 * depth := by
  have hall : ∀ b ∈ List.replicate (2 * depth) ' ', decide (b = ' ') = true := by simp
  rw [blanks, indent, String.toList_append, String.toList_ofList, h,
    List.takeWhile_append_of_pos hall, List.takeWhile_cons_of_neg (by simpa using hc),
    List.append_nil, List.length_replicate]

theorem linesAt_eq (isShown : Char → Bool) (depth : Nat) (t : Tree) :
    t.linesAt isShown depth = (indent depth ++ t.headline isShown) ::
      slotLinesAt isShown (depth + 1) t.slots := by
  cases t <;> simp [linesAt, headline, slots, slotLinesAt, String.append_assoc]

def slotHeadline (isShown : Char → Bool) : Option Tree → String
  | none => "-"
  | some t => t.headline isShown

def innerLines (isShown : Char → Bool) (depth : Nat) : Option Tree → List String
  | none => []
  | some t => slotLinesAt isShown (depth + 1) t.slots

theorem slotLinesAt_cons (c : Option Tree) (cs : List (Option Tree)) :
    slotLinesAt isShown depth (c :: cs) = (indent depth ++ slotHeadline isShown c) ::
      (innerLines isShown depth c ++ slotLinesAt isShown depth cs) := by
  cases c with
  | none => rfl
  | some t => rw [slotLinesAt, linesAt_eq, List.cons_append]; rfl

theorem blanks_slotHeadline (isShown : Char → Bool) (depth : Nat) (c : Option Tree) :
    blanks (indent depth ++ slotHeadline isShown c) = 2 * depth := by
  cases c with
  | none =>
    have hdash : "-".toList = ['-'] := rfl
    exact blanks_indent hdash (by decide) depth
  | some t =>
    obtain ⟨c, cs, hline, hc⟩ := headline_toList isShown t
    exact blanks_indent hline (fun h => absurd (h ▸ hc) (by decide)) depth

/-- Lines that are not those of more slots at a depth: the first one stands further out. -/
def EndSlots (depth : Nat) (lines : List String) : Prop :=
  ∀ line ∈ lines.head?, blanks line < 2 * depth

theorem endSlots_nil (depth : Nat) : EndSlots depth [] := nofun

theorem EndSlots.slots {lines : List String} (h : EndSlots depth lines)
    (cs : List (Option Tree)) : EndSlots (depth + 1) (slotLinesAt isShown depth cs ++ lines) := by
  cases cs with
  | nil => exact fun line hline => (h line hline).trans (by omega)
  | cons c cs =>
    intro line hline
    simp only [slotLinesAt_cons, List.cons_append, List.head?_cons, Option.mem_some_iff] at hline
    rw [← hline, blanks_slotHeadline]
    omega

theorem not_endSlots (c : Option Tree) (cs : List (Option Tree)) (lines : List String) :
    ¬EndSlots depth (slotLinesAt isShown depth (c :: cs) ++ lines) := by
  intro h
  have := h _ (by rw [slotLinesAt_cons]; rfl)
  rw [blanks_slotHeadline] at this
  omega

theorem indent_inj {a b : String} (h : indent depth ++ a = indent depth ++ b) : a = b := by
  simpa using h

mutual

/-- The lines of a tree determine its kinds and texts, and where they end. -/
theorem linesAt_inj : ∀ (depth : Nat) (a b : Tree) {r s : List String},
    EndSlots (depth + 1) r → EndSlots (depth + 1) s →
    a.linesAt isShown depth ++ r = b.linesAt isShown depth ++ s →
      a.skeleton = b.skeleton ∧ r = s
  | depth, leaf k t, leaf l u, r, s, hr, hs, h => by
    simp only [linesAt_eq, headline, slots, slotLinesAt, List.cons_append, List.nil_append,
      List.cons.injEq] at h
    obtain ⟨rfl, htext⟩ := leafLine_inj (indent_inj h.1)
    exact ⟨by simp only [skeleton, htext], h.2⟩
  | depth, node k cs, node l ds, r, s, hr, hs, h => by
    simp only [linesAt_eq, headline, slots, List.cons_append, List.cons.injEq] at h
    obtain rfl := Kind.name_injective (indent_inj h.1)
    obtain ⟨hslots, rfl⟩ := slotLinesAt_inj (depth + 1) cs ds hr hs h.2
    exact ⟨by simp only [skeleton, hslots], rfl⟩
  | depth, leaf k t, node l ds, r, s, hr, hs, h => by
    simp only [linesAt_eq, headline, List.cons_append, List.cons.injEq] at h
    exact absurd (indent_inj h.1) (leafLine_ne_name isShown k l t.text)
  | depth, node k cs, leaf l u, r, s, hr, hs, h => by
    simp only [linesAt_eq, headline, List.cons_append, List.cons.injEq] at h
    exact absurd (indent_inj h.1).symm (leafLine_ne_name isShown l k u.text)

theorem slotLinesAt_inj : ∀ (depth : Nat) (cs ds : List (Option Tree)) {r s : List String},
    EndSlots depth r → EndSlots depth s →
    slotLinesAt isShown depth cs ++ r = slotLinesAt isShown depth ds ++ s →
      slotSkeletons cs = slotSkeletons ds ∧ r = s
  | depth, [], [], r, s, hr, hs, h => ⟨rfl, h⟩
  | depth, none :: cs, none :: ds, r, s, hr, hs, h => by
    simp only [slotLinesAt, List.cons_append, List.cons.injEq, true_and] at h
    obtain ⟨hslots, rfl⟩ := slotLinesAt_inj depth cs ds hr hs h
    exact ⟨by simp only [slotSkeletons, hslots], rfl⟩
  | depth, some a :: cs, some b :: ds, r, s, hr, hs, h => by
    simp only [slotLinesAt, List.append_assoc] at h
    obtain ⟨htree, h⟩ := linesAt_inj depth a b (hr.slots cs) (hs.slots ds) h
    obtain ⟨hslots, rfl⟩ := slotLinesAt_inj depth cs ds hr hs h
    exact ⟨by simp only [slotSkeletons, htree, hslots], rfl⟩
  | depth, [], d :: ds, r, s, hr, hs, h => by
    rw [slotLinesAt, List.nil_append] at h
    exact absurd (h ▸ hr) (not_endSlots d ds s)
  | depth, c :: cs, [], r, s, hr, hs, h => by
    rw [slotLinesAt, List.nil_append] at h
    exact absurd (h ▸ hs) (not_endSlots c cs r)
  | depth, none :: cs, some b :: ds, r, s, hr, hs, h => by
    simp only [slotLinesAt_cons, slotHeadline, List.cons_append, List.cons.injEq] at h
    exact absurd (indent_inj h.1).symm (headline_ne_dash isShown b)
  | depth, some a :: cs, none :: ds, r, s, hr, hs, h => by
    simp only [slotLinesAt_cons, slotHeadline, List.cons_append, List.cons.injEq] at h
    exact absurd (indent_inj h.1) (headline_ne_dash isShown a)

end

theorem newline_notMem_name (k : Kind) : '\n' ∉ k.name.toList := fun h =>
  absurd (Kind.isAlpha_of_mem_name h) (by decide)

theorem newline_notMem_slotHeadline (isShown : Char → Bool) (c : Option Tree) :
    '\n' ∉ (slotHeadline isShown c).toList := by
  match c with
  | none => simp [slotHeadline]
  | some (leaf k t) =>
    simp [slotHeadline, headline, newline_notMem_name, Text.newline_notMem_quoted]
  | some (node k cs) => exact newline_notMem_name k

theorem newline_notMem_indent {line : String} (h : '\n' ∉ line.toList) (depth : Nat) :
    '\n' ∉ (indent depth ++ line).toList := by
  simp [indent, h]

mutual

/-- Every line of a tree is one line. -/
theorem newline_notMem_linesAt : ∀ (depth : Nat) (t : Tree),
    ∀ line ∈ t.linesAt isShown depth, '\n' ∉ line.toList
  | depth, leaf k t => by
    rw [linesAt_eq, List.forall_mem_cons]
    exact ⟨newline_notMem_indent (newline_notMem_slotHeadline isShown (some (leaf k t))) depth,
      nofun⟩
  | depth, node k cs => by
    rw [linesAt_eq, List.forall_mem_cons]
    exact ⟨newline_notMem_indent (newline_notMem_slotHeadline isShown (some (node k cs))) depth,
      newline_notMem_slotLinesAt (depth + 1) cs⟩

theorem newline_notMem_slotLinesAt : ∀ (depth : Nat) (cs : List (Option Tree)),
    ∀ line ∈ slotLinesAt isShown depth cs, '\n' ∉ line.toList
  | depth, [] => nofun
  | depth, none :: cs => by
    rw [slotLinesAt, List.forall_mem_cons]
    exact ⟨newline_notMem_indent (newline_notMem_slotHeadline isShown none) depth,
      newline_notMem_slotLinesAt depth cs⟩
  | depth, some t :: cs => by
    rw [slotLinesAt, List.forall_mem_append]
    exact ⟨newline_notMem_linesAt depth t, newline_notMem_slotLinesAt depth cs⟩

end

/-- A text with line ends tells the lines that it is made of. -/
theorem join_lines_inj {ls ms : List String} (hl : ∀ l ∈ ls, '\n' ∉ l.toList)
    (hm : ∀ m ∈ ms, '\n' ∉ m.toList)
    (h : String.join (ls.map (· ++ "\n")) = String.join (ms.map (· ++ "\n"))) : ls = ms := by
  have hlines (ls : List String) : (String.join (ls.map (· ++ "\n"))).toList =
      ls.flatMap fun l => l.toList ++ ['\n'] := by
    simp [List.flatMap_map]
  rw [← String.toList_inj, hlines, hlines] at h
  induction ls generalizing ms with
  | nil => cases ms <;> simp_all
  | cons l ls ih =>
    cases ms with
    | nil => simp at h
    | cons m ms =>
      rw [List.forall_mem_cons] at hl hm
      simp only [List.flatMap_cons, List.append_assoc, List.singleton_append] at h
      obtain ⟨hline, h⟩ := append_cons_inj hl.1 hm.1 h
      rw [String.toList_inj.mp hline, ih hl.2 hm.2 h]

end Lines

/-- Trees have the same outline if and only if nothing but the places, kinds and surroundings of
their tokens differs. -/
theorem outlineWith_eq_iff (a b : Tree) :
    a.outlineWith isShown = b.outlineWith isShown ↔ a.skeleton = b.skeleton := by
  constructor
  · intro h
    have hlines : a.linesAt isShown 0 = b.linesAt isShown 0 :=
      join_lines_inj (newline_notMem_linesAt 0 a) (newline_notMem_linesAt 0 b) h
    have happend : a.linesAt isShown 0 ++ [] = b.linesAt isShown 0 ++ [] := by rw [hlines]
    exact (linesAt_inj 0 a b (endSlots_nil 1) (endSlots_nil 1) happend).1
  · intro h
    rw [outlineWith, outlineWith, linesAt_eq_of_skeleton 0 a b h]

/-- Equivalence is equality of outlines, whichever characters are shown as they are, and so an
equivalence relation; it sees the kinds of trees, which slots are filled, and the texts of leaves,
and nothing else. -/
theorem equivalent_iff_outline (isShown : Char → Bool) :
    Equivalence (fun a b : Tree => a.equivalent b = true) ∧ ∀ a b : Tree,
      (a.equivalent b = true ↔ a.outlineWith isShown = b.outlineWith isShown) ∧
      (a.outlineWith isShown = b.outlineWith isShown ↔ a.skeleton = b.skeleton) := by
  have hiff (a b : Tree) : a.equivalent b = true ↔ a.skeleton = b.skeleton :=
    equivalent_iff_skeleton a b
  refine ⟨⟨fun a => ?_, fun h => ?_, fun h h' => ?_⟩, fun a b => ⟨?_, outlineWith_eq_iff a b⟩⟩
  · rw [hiff]
  · rw [hiff] at h ⊢
    exact h.symm
  · rw [hiff] at h h' ⊢
    exact h.trans h'
  · rw [hiff, outlineWith_eq_iff]

end Tree

end PhpSyntax
