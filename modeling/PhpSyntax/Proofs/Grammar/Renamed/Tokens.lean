import PhpSyntax.Grammar.Statement
import PhpSyntax.Proofs.Grammar.Reads

namespace PhpSyntax

/-- A change of tokens that keeps their kinds, the texts of punctuators, and the texts of
identifiers up to the case of ASCII letters. -/
structure Renaming where
  apply : Token → Token
  kind_apply : ∀ t, (apply t).kind = t.kind
  punctuator_apply : ∀ t, t.kind = .punctuator → (apply t).text = t.text
  identifier_apply : ∀ t, t.kind = .identifier →
    Text.sameIgnoringCase (apply t).text t.text = true

attribute [simp] Renaming.kind_apply

namespace Renaming

def refl : Renaming where
  apply := id
  kind_apply _ := rfl
  punctuator_apply _ _ := rfl
  identifier_apply _ _ := by simp [Text.sameIgnoringCase]

variable (f : Renaming) (t : Token)

@[simp]
theorem isPunctuator_apply (p : Punctuator) :
    (f.apply t).isPunctuator p = t.isPunctuator p := by
  by_cases h : t.kind = .punctuator
  · simp [Token.isPunctuator, f.punctuator_apply t h]
  · simp [Token.isPunctuator, h]

theorem lower_apply (h : t.kind = .identifier) :
    (f.apply t).text.toList.map Char.toLower = t.text.toList.map Char.toLower :=
  of_decide_eq_true (f.identifier_apply t h)

@[simp]
theorem isKeyword_apply (k : Keyword) : (f.apply t).isKeyword k = t.isKeyword k := by
  by_cases h : t.kind = .identifier
  · simp [Token.isKeyword, Keyword.isSpelled, Text.sameIgnoringCase, f.lower_apply t h]
  · simp [Token.isKeyword, h]

@[simp]
theorem isKeywordIn_apply (ks : List Keyword) :
    (f.apply t).isKeywordIn ks = t.isKeywordIn ks := by
  rw [Token.isKeywordIn, Token.isKeywordIn, funext (f.isKeyword_apply t)]

theorem spellsAny_apply (h : t.kind = .identifier) (words : List String) :
    Grammar.spellsAny words (f.apply t).text = Grammar.spellsAny words t.text := by
  simp [Grammar.spellsAny, Text.sameIgnoringCase, f.lower_apply t h]

theorem toLower_eq_backslash (c : Char) : c.toLower = '\\' ↔ c = '\\' := by
  constructor
  · intro h
    unfold Char.toLower at h
    split at h
    · next hc =>
      have hlow : 65 ≤ c.toNat := UInt32.le_iff_toNat_le.mp hc.1
      have hhigh : c.toNat ≤ 90 := UInt32.le_iff_toNat_le.mp hc.2
      have hval : (c.toNat + 32) % 2 ^ 32 = 92 := congrArg Char.toNat h
      omega
    · exact h
  · rintro rfl
    rfl

/-- Backslashes have no case. -/
theorem isQualified_apply (h : t.kind = .identifier) :
    (f.apply t).isQualified = t.isQualified := by
  have mem_iff : ∀ cs : List Char, '\\' ∈ cs ↔ '\\' ∈ cs.map Char.toLower := by
    intro cs
    simp [toLower_eq_backslash]
  rw [Bool.eq_iff_iff]
  simp only [Token.isQualified, List.contains_iff_mem]
  rw [mem_iff, f.lower_apply t h, ← mem_iff]

end Renaming

namespace Tree

mutual

def rename (f : Renaming) : Tree → Tree
  | leaf k t => leaf k (f.apply t)
  | node k cs => node k (renameSlots f cs)

def renameSlots (f : Renaming) : List (Option Tree) → List (Option Tree)
  | [] => []
  | none :: cs => none :: renameSlots f cs
  | some t :: cs => some (t.rename f) :: renameSlots f cs

end

variable (f : Renaming)

@[simp]
theorem rename_leaf (k : Kind) (t : Token) : (leaf k t).rename f = leaf k (f.apply t) := rfl

@[simp]
theorem rename_node (k : Kind) (cs : List (Option Tree)) :
    (node k cs).rename f = node k (renameSlots f cs) := rfl

@[simp]
theorem kind_rename (tree : Tree) : (tree.rename f).kind = tree.kind := by
  cases tree <;> rfl

@[simp]
theorem renameSlots_nil : renameSlots f [] = [] := rfl

@[simp]
theorem renameSlots_cons (c : Option Tree) (cs : List (Option Tree)) :
    renameSlots f (c :: cs) = c.map (rename f) :: renameSlots f cs := by
  cases c <;> rfl

@[simp]
theorem renameSlots_append (cs ds : List (Option Tree)) :
    renameSlots f (cs ++ ds) = renameSlots f cs ++ renameSlots f ds := by
  induction cs with
  | nil => rfl
  | cons c cs ih => simp [ih]

@[simp]
theorem isEmpty_renameSlots (cs : List (Option Tree)) :
    (renameSlots f cs).isEmpty = cs.isEmpty := by
  cases cs <;> simp

end Tree

namespace Grammar.Cursor

def rename (f : Renaming) (c : Cursor) : Cursor :=
  ⟨f.apply c.current, c.ahead.map f.apply⟩

variable (f : Renaming) (c : Cursor)

@[simp]
theorem current_rename : (c.rename f).current = f.apply c.current := rfl

@[simp]
theorem remaining_rename : (c.rename f).remaining = c.remaining := by
  simp [remaining, rename]

@[simp]
theorem atEnd_rename : (c.rename f).atEnd = c.atEnd := by
  simp [atEnd]

@[simp]
theorem next_rename : (c.rename f).next = c.next.rename f := by
  unfold next
  rw [atEnd_rename]
  split
  · rfl
  · obtain ⟨current, ahead⟩ := c
    cases ahead <;> rfl

@[simp]
theorem peek_rename (n : Nat) : (c.rename f).peek n = f.apply (c.peek n) := by
  obtain ⟨current, ahead⟩ := c
  cases n with
  | zero => rfl
  | succ n =>
    simp only [peek, rename, List.getElem?_map, List.getLastD_map]
    cases ahead[n]? <;> rfl

@[simp]
theorem seesKind_rename (k : TokenKind) : (c.rename f).seesKind k = c.seesKind k := by
  simp [seesKind]

@[simp]
theorem sees_rename (p : Punctuator) : (c.rename f).sees p = c.sees p := by
  simp [sees]

@[simp]
theorem seesAny_rename (ps : List Punctuator) : (c.rename f).seesAny ps = c.seesAny ps := by
  rw [seesAny, seesAny, funext (sees_rename f c)]

@[simp]
theorem seesKeyword_rename (k : Keyword) : (c.rename f).seesKeyword k = c.seesKeyword k := by
  simp [seesKeyword]

@[simp]
theorem seesAnyKeyword_rename (ks : List Keyword) :
    (c.rename f).seesAnyKeyword ks = c.seesAnyKeyword ks := by
  simp [seesAnyKeyword]

@[simp]
theorem seesStatementEnd_rename : (c.rename f).seesStatementEnd = c.seesStatementEnd := by
  simp [seesStatementEnd]

@[simp]
theorem seesParameterName_rename : (c.rename f).seesParameterName = c.seesParameterName := by
  simp [seesParameterName]

@[simp]
theorem seesIntersection_rename : (c.rename f).seesIntersection = c.seesIntersection := by
  simp [seesIntersection]

@[simp]
theorem seesClosure_rename : (c.rename f).seesClosure = c.seesClosure := by
  simp [seesClosure]

@[simp]
theorem seesFunctionDeclaration_rename :
    (c.rename f).seesFunctionDeclaration = c.seesFunctionDeclaration := by
  simp [seesFunctionDeclaration]

@[simp]
theorem classModifierCount_rename :
    (c.rename f).classModifierCount = c.classModifierCount := by
  have h : ((c.rename f).current :: (c.rename f).ahead) = (c.current :: c.ahead).map f.apply := rfl
  simp only [classModifierCount, h, List.takeWhile_map, List.length_map]
  congr 2
  funext t
  simp

@[simp]
theorem operator?_rename : (c.rename f).operator? = c.operator? := by
  rw [operator?, operator?, funext (sees_rename f c)]
  simp

@[simp]
theorem prefixKind?_rename : (c.rename f).prefixKind? = c.prefixKind? := by
  simp [prefixKind?]

@[simp]
theorem operandKind?_rename : (c.rename f).operandKind? = c.operandKind? := by
  simp [operandKind?]

end Grammar.Cursor

end PhpSyntax
