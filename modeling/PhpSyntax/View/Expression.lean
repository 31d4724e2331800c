import PhpSyntax.Literal.Integer
import PhpSyntax.Literal.Text
import PhpSyntax.View.Call

namespace PhpSyntax

def Kind.isLiteral : Kind → Bool
  | .integerLiteral | .floatLiteral | .regularStringLiteral | .expandableStringLiteral
  | .heredocLiteral | .nowdocLiteral | .booleanLiteral | .nullLiteral | .magicConstant => true
  | _ => false

structure LiteralLeaf where
  tree : Tree
  isLiteral : tree.kind.isLiteral = true

namespace LiteralLeaf

def ofTree? (tree : Tree) : Option LiteralLeaf :=
  if h : tree.kind.isLiteral then some ⟨tree, h⟩ else none

def text (l : LiteralLeaf) : String :=
  l.tree.text?.getD ""

def textValue? (l : LiteralLeaf) : Option String :=
  if l.tree.kind = .regularStringLiteral then Literal.textValue? l.text else none

def integerValue? (l : LiteralLeaf) : Option Int :=
  if l.tree.kind = .integerLiteral then Literal.integerValue? l.text else none

end LiteralLeaf

structure BinaryExpression where
  tree : Tree
  isBinary : tree.kind.isBinary = true

namespace BinaryExpression

def ofTree? (tree : Tree) : Option BinaryExpression :=
  if h : tree.kind.isBinary then some ⟨tree, h⟩ else none

def left? (e : BinaryExpression) : Option Tree :=
  e.tree.child? 0

def operator? (e : BinaryExpression) : Option Token :=
  (e.tree.child? 1).bind (·.token?)

def right? (e : BinaryExpression) : Option Tree :=
  e.tree.child? 2

end BinaryExpression

structure MatchExpression where
  tree : Tree
  kind_eq : tree.kind = .matchExpression

namespace MatchExpression

def ofTree? (tree : Tree) : Option MatchExpression :=
  if h : tree.kind = .matchExpression then some ⟨tree, h⟩ else none

def subject? (m : MatchExpression) : Option Tree :=
  m.tree.child? 2

def arms (m : MatchExpression) : List Tree :=
  m.tree.elementsAt 5

def hasDefault (m : MatchExpression) : Bool :=
  m.arms.any (·.kind = .matchDefaultClause)

end MatchExpression

end PhpSyntax
