import PhpSyntax.Grammar.Statement
import PhpSyntax.Lexer.Scan

/-!
Whole files. The productions are tied together by a bound on their nesting: each nested call comes
after a token has been read, so that the number of tokens is always enough.
-/

namespace PhpSyntax.Grammar

open Production

/-- The productions inside others, down to a depth. Below it nothing can be read. -/
def nested : Nat → Nested
  | 0 =>
    { statement := unexpected .expression
      binary := fun _ => unexpected .expression
      unary := unexpected .expression
      access := unexpected .expression
      dollarVariable := unexpected .expression
      typeAtom := unexpected .expression }
  | depth + 1 =>
    let r := nested depth
    { statement := statement r
      binary := binary r
      unary := unary r
      access := access r
      dollarVariable := dollarVariable r
      typeAtom := typeAtom r }

def compilationUnit : Production Tree := do
  let r := nested (← get).remaining
  let statements ← gatherTrees (!·.atEnd) r.statement
  return .node .compilationUnit (statements ++ [some (← token)])

/-- The tree of a file that consists of these tokens, of which the last has to be the file's
end. -/
def parse (tokens : List Token) : Except SyntaxError Tree :=
  match tokens with
  | [] => .error ⟨.unexpectedEnd .endOfFile, ⟨0, 0⟩⟩
  | t :: ts =>
    let last := ts.getLastD t
    if last.kind = .eof then (compilationUnit.run ⟨t, ts⟩).map (·.1)
    else .error ⟨.unexpectedEnd .endOfFile, last.stop⟩

inductive SourceError where
  | lexical (error : LexError)
  | grammatical (error : SyntaxError)
deriving DecidableEq

def SourceError.message : SourceError → String
  | lexical e => e.message
  | grammatical e => e.message

def SourceError.position : SourceError → Position
  | lexical e => e.position
  | grammatical e => e.position

def parseSourceWith (options : Lexer.LexerOptions) (source : String) :
    Except SourceError Tree := do
  let tokens ← (Lexer.tokenizeWith options source).toExcept.mapError .lexical
  (parse tokens).mapError .grammatical

def parseSource (source : String) : Except SourceError Tree :=
  parseSourceWith ⟨false⟩ source

end PhpSyntax.Grammar
