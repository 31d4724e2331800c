import PhpSyntax.Lexer.Name

/-!
How far a quoted text runs. A backslash protects the next character; where the text interpolates,
a variable or braces around one may stand inside, and braces hide the closing quote.
-/

namespace PhpSyntax.Lexer

inductive QuotedState where
  | plain
  /-- Just after a backslash. -/
  | escaped
  /-- Inside `depth` open braces of an interpolation. -/
  | braced (depth : Nat)
deriving DecidableEq

structure QuotedRun where
  /-- The number of characters after the opening quote, the closing one included. -/
  length : Nat
  closed : Bool
  /-- Whether an interpolation occurs. -/
  expandable : Bool
deriving DecidableEq

/-- The state after `c`, which `rest` follows, and whether an interpolation starts at `c`. -/
def QuotedState.next (interpolates : Bool) (state : QuotedState) (c : Char) (rest : List Char) :
    QuotedState × Bool :=
  match state with
  | .escaped => (.plain, false)
  | .braced depth =>
    if c = '\x7b' then (.braced (depth + 1), false)
    else if c = '\x7d' then (if depth ≤ 1 then .plain else .braced (depth - 1), false)
    else (.braced depth, false)
  | .plain =>
    if c = '\\' then (.escaped, false)
    else if interpolates && c = '$' && startsWith isNameStart rest then (.plain, true)
    else if interpolates && c = '$' && rest.head? = some '\x7b' then (.braced 0, true)
    else if interpolates && c = '\x7b' && rest.head? = some '$' then (.braced 1, true)
    else (.plain, false)

def quotedRun (close : Char) (interpolates : Bool) : QuotedState → List Char → QuotedRun
  | _, [] => ⟨0, false, false⟩
  | state, c :: cs =>
    if state = .plain && c = close then ⟨1, true, false⟩
    else
      let (state', starts) := state.next interpolates c cs
      let run := quotedRun close interpolates state' cs
      ⟨run.length + 1, run.closed, starts || run.expandable⟩

end PhpSyntax.Lexer
