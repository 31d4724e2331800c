import PhpSyntax.Grammar.Cursor
import PhpSyntax.Tree.Walk

namespace PhpSyntax

/-- The tokens that a leaf of a kind can hold. A part of a larger construct can be any token. -/
def Kind.holds (kind : Kind) (t : Token) : Bool :=
  match kind with
  | .token => true
  | .inlineHtml => t.kind = .inlineHtml || t.kind = .openTag || t.kind = .closeTag
  | .emptyStatement => t.isPunctuator .semicolon
  | .variableIdentifier => t.kind = .variableName
  | .nameIdentifier | .namespaceName | .builtInType | .booleanLiteral | .nullLiteral
  | .magicConstant => t.kind = .identifier
  | .integerLiteral => t.kind = .integer
  | .floatLiteral => t.kind = .float
  | .regularStringLiteral => t.kind = .singleQuotedString || t.kind = .doubleQuotedString
  | .expandableStringLiteral => t.kind = .expandableString
  | .heredocLiteral => t.kind = .heredoc
  | .nowdocLiteral => t.kind = .nowdoc
  | .executionOperator => t.kind = .shellCommand
  | _ => false

@[simp]
theorem filled_append (cs ds : List (Option Tree)) : filled (cs ++ ds) = filled cs ++ filled ds :=
  List.filterMap_append

theorem filled_cons (c : Option Tree) (cs : List (Option Tree)) :
    filled (c :: cs) = c.toList ++ filled cs := by
  cases c <;> rfl

namespace Tree

def isSeparator : Option Tree → Bool
  | some (leaf .token t) => [.comma, .pipe, .ampersand].any t.isPunctuator
  | _ => false

def Alternates : List (Option Tree) → Prop
  | [] => True
  | [element] => isSeparator element = false
  | element :: separator :: rest =>
    isSeparator element = false ∧ isSeparator separator = true ∧ Alternates rest

def Paired : List (Option Tree) → Prop
  | [] => True
  | [_] => False
  | separator :: element :: rest =>
    isSeparator separator = true ∧ isSeparator element = false ∧ Paired rest

theorem Paired.append {a b : List (Option Tree)} (ha : Paired a) (hb : Paired b) :
    Paired (a ++ b) := by
  induction a using Paired.induct with
  | case1 => exact hb
  | case2 => exact ha.elim
  | case3 s e rest ih => exact ⟨ha.1, ha.2.1, ih ha.2.2⟩

theorem Paired.alternates {first : Option Tree} {slots : List (Option Tree)}
    (h : Paired slots) (hf : isSeparator first = false) : Alternates (first :: slots) := by
  induction slots using Paired.induct generalizing first with
  | case1 => exact hf
  | case2 => exact h.elim
  | case3 s e rest ih => exact ⟨hf, h.1, ih h.2.2 h.2.1⟩

/-- What a tree of a kind looks like from outside: the token of a leaf, the number of slots of a
node, and the separators of a list. -/
def Fits : Tree → Prop
  | leaf kind t => kind.holds t
  | node kind cs => (node? kind cs).isSome ∧ (kind.isSeparated → Alternates cs)

def Sound (tree : Tree) : Prop :=
  ∀ n ∈ tree.preorder, n.Fits

theorem slotsTokens_eq (cs : List (Option Tree)) :
    slotsTokens cs = (filled cs).flatMap tokens := by
  induction cs with
  | nil => rfl
  | cons c cs ih => cases c <;> simp [slotsTokens, ih]

theorem slotsPreorder_eq (cs : List (Option Tree)) :
    slotsPreorder cs = (filled cs).flatMap preorder := by
  induction cs with
  | nil => rfl
  | cons c cs ih => cases c <;> simp [slotsPreorder, ih]

@[simp]
theorem tokens_leaf (k : Kind) (t : Token) : (leaf k t).tokens = [t] := rfl

@[simp]
theorem tokens_node (k : Kind) (cs : List (Option Tree)) :
    (node k cs).tokens = (filled cs).flatMap tokens := by
  rw [tokens, slotsTokens_eq]

theorem preorder_node (k : Kind) (cs : List (Option Tree)) :
    (node k cs).preorder = node k cs :: (filled cs).flatMap preorder := by
  rw [preorder, slotsPreorder_eq]

theorem sound_leaf {k : Kind} {t : Token} : (leaf k t).Sound ↔ k.holds t := by
  simp [Sound, preorder, Fits]

theorem sound_node {k : Kind} {cs : List (Option Tree)} :
    (node k cs).Sound ↔ (node k cs).Fits ∧ ∀ t ∈ filled cs, t.Sound := by
  simp only [Sound, preorder_node, List.forall_mem_cons, List.mem_flatMap]
  constructor
  · rintro ⟨hn, h⟩
    exact ⟨hn, fun t ht n hm => h n ⟨t, ht, hm⟩⟩
  · rintro ⟨hn, h⟩
    exact ⟨hn, fun n ⟨t, ht, hm⟩ => h t ht n hm⟩

end Tree

end PhpSyntax
