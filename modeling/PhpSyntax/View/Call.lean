import PhpSyntax.Tree.Basic

namespace PhpSyntax

namespace Tree

def elementsAt (tree : Tree) (i : Nat) : List Tree :=
  ((tree.child? i).map elements).getD []

def textAt? (tree : Tree) (i : Nat) : Option String :=
  (tree.child? i).bind text?

def hasKindAt (tree : Tree) (i : Nat) (kind : Kind) : Bool :=
  (tree.child? i).any (·.kind = kind)

end Tree

structure CallArgument where
  tree : Tree
  kind_eq : tree.kind = .callArgument

namespace CallArgument

def ofTree? (tree : Tree) : Option CallArgument :=
  if h : tree.kind = .callArgument then some ⟨tree, h⟩ else none

def name? (a : CallArgument) : Option String :=
  a.tree.textAt? 0

def value? (a : CallArgument) : Option Tree :=
  a.tree.child? 2

def isSpread (a : CallArgument) : Bool :=
  a.tree.hasKindAt 2 .spreadArgument

end CallArgument

structure FunctionCall where
  tree : Tree
  kind_eq : tree.kind = .functionCall

namespace FunctionCall

def ofTree? (tree : Tree) : Option FunctionCall :=
  if h : tree.kind = .functionCall then some ⟨tree, h⟩ else none

def callee? (call : FunctionCall) : Option Tree :=
  call.tree.child? 0

def withoutLeadingBackslashes (text : String) : String :=
  String.ofList (text.toList.dropWhile (· = '\\'))

def functionName? (call : FunctionCall) : Option String := do
  let callee ← call.callee?
  guard (callee.kind = .nameIdentifier || callee.kind = .namespaceName)
  return withoutLeadingBackslashes (← callee.text?)

def isCallableConvert (call : FunctionCall) : Bool :=
  call.tree.hasKindAt 1 .callableConvert

def arguments (call : FunctionCall) : List CallArgument :=
  match call.tree.child? 1 with
  | some list =>
    if list.kind = .arguments then (list.elementsAt 1).filterMap CallArgument.ofTree? else []
  | none => []

end FunctionCall

end PhpSyntax
