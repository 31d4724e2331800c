import PhpSyntax.View.Call

namespace PhpSyntax

def Tree.parametersAt (tree : Tree) (i : Nat) : List Tree :=
  ((tree.child? i).map (·.elementsAt 1)).getD []

structure FunctionExpression where
  tree : Tree
  kind_eq : tree.kind = .functionExpression

namespace FunctionExpression

def ofTree? (tree : Tree) : Option FunctionExpression :=
  if h : tree.kind = .functionExpression then some ⟨tree, h⟩ else none

def isStatic (f : FunctionExpression) : Bool :=
  (f.tree.child? 1).isSome

def returnsReference (f : FunctionExpression) : Bool :=
  (f.tree.child? 3).isSome

def parameters (f : FunctionExpression) : List Tree :=
  f.tree.parametersAt 4

def lexicalVariables? (f : FunctionExpression) : Option Tree :=
  f.tree.child? 5

def captured (f : FunctionExpression) : List Tree :=
  (f.lexicalVariables?.map (·.elementsAt 2)).getD []

def returnType? (f : FunctionExpression) : Option Tree :=
  (f.tree.child? 6).bind (·.child? 1)

def body? (f : FunctionExpression) : Option Tree :=
  f.tree.child? 7

end FunctionExpression

structure ArrowFunction where
  tree : Tree
  kind_eq : tree.kind = .arrowFunctionExpression

namespace ArrowFunction

def ofTree? (tree : Tree) : Option ArrowFunction :=
  if h : tree.kind = .arrowFunctionExpression then some ⟨tree, h⟩ else none

def isStatic (f : ArrowFunction) : Bool :=
  (f.tree.child? 1).isSome

def parameters (f : ArrowFunction) : List Tree :=
  f.tree.parametersAt 4

def returnType? (f : ArrowFunction) : Option Tree :=
  (f.tree.child? 5).bind (·.child? 1)

def body? (f : ArrowFunction) : Option Tree :=
  f.tree.child? 7

end ArrowFunction

end PhpSyntax
