import PhpSyntax.View.Call

namespace PhpSyntax

def Kind.isClassLike : Kind → Bool
  | .classDeclaration | .interfaceDeclaration | .traitDeclaration | .enumDeclaration => true
  | _ => false

structure ClassLike where
  tree : Tree
  isClassLike : tree.kind.isClassLike = true

namespace ClassLike

def ofTree? (tree : Tree) : Option ClassLike :=
  if h : tree.kind.isClassLike then some ⟨tree, h⟩ else none

def name? (c : ClassLike) : Option String :=
  c.tree.textAt? (if c.tree.kind = .classDeclaration then 3 else 2)

def attributes (c : ClassLike) : List Tree :=
  c.tree.elementsAt 0

def members (c : ClassLike) : List Tree :=
  c.tree.elementsAt (c.tree.slots.length - 2)

end ClassLike

def Kind.isImport : Kind → Bool
  | .useStatement | .groupUseStatement => true
  | _ => false

structure UseStatement where
  tree : Tree
  isImport : tree.kind.isImport = true

namespace UseStatement

def ofTree? (tree : Tree) : Option UseStatement :=
  if h : tree.kind.isImport then some ⟨tree, h⟩ else none

def isGroup (u : UseStatement) : Bool :=
  u.tree.kind = .groupUseStatement

def importType? (u : UseStatement) : Option String :=
  u.tree.textAt? 1

def clauses (u : UseStatement) : List Tree :=
  u.tree.elementsAt (if u.isGroup then 5 else 2)

def groupNamespace? (u : UseStatement) : Option String :=
  if u.isGroup then u.tree.textAt? 2 else none

def importedNames (u : UseStatement) : List String :=
  (u.clauses.filterMap (·.textAt? 1)).map fun name =>
    match u.groupNamespace? with
    | some group => group ++ "\\" ++ name
    | none => name

end UseStatement

end PhpSyntax
