import PhpSyntax.Text.CaseMapping
import PhpSyntax.View.Expression

namespace PhpSyntax

def insertText (text : String) : List String → List String
  | [] => [text]
  | t :: ts =>
    if text < t then text :: t :: ts
    else if text = t then t :: ts
    else t :: insertText text ts

structure ArgumentMatcher where
  /-- The number of parameters before it. -/
  position : Nat
  name? : Option String
  /-- The values in lower case and increasing order, each once. -/
  values : List String
deriving DecidableEq

inductive ArgumentMatcherError where
  | noValues
deriving DecidableEq

def ArgumentMatcherError.message : ArgumentMatcherError → String
  | noValues => "a value matcher needs at least one value"

namespace ArgumentMatcher

def ofParameter (position : Nat) (name? : Option String) : ArgumentMatcher :=
  ⟨position, name?, []⟩

/-- The parameter with values in place of those that it had, whose case does not matter. -/
def withValues (m : ArgumentMatcher) (values : List String) :
    Except ArgumentMatcherError ArgumentMatcher :=
  if values.isEmpty then .error .noValues
  else .ok { m with values := (values.map Text.lowercase).foldr insertText [] }

/-- The argument that is passed for the parameter. A named one wins over the one at its place,
where only arguments without a name are counted. -/
def argument? (m : ArgumentMatcher) (call : FunctionCall) : Option CallArgument :=
  let named := m.name?.bind fun name => call.arguments.find? (·.name? = some name)
  named.or ((call.arguments.filter (·.name?.isNone))[m.position]?)

def value? (m : ArgumentMatcher) (call : FunctionCall) : Option Tree :=
  (m.argument? call).bind (·.value?)

def matchesValue (m : ArgumentMatcher) (call : FunctionCall) : Bool :=
  match ((m.value? call).bind LiteralLeaf.ofTree?).bind (·.textValue?) with
  | some text => m.values.contains (Text.lowercase text)
  | none => false

end ArgumentMatcher

end PhpSyntax
