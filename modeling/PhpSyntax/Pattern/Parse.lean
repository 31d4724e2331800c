import PhpSyntax.Pattern.Group

/-!
Whole patterns. The readers are tied together by a bound on their nesting: each nested call comes
after a character has been read, so that the number of characters is always enough.
-/

namespace PhpSyntax.Pattern

open Reading

/-- The readers inside others, down to a depth. Below it nothing is read. -/
def nestedReaders : Nat → NestedReaders
  | 0 =>
    { disjunction := do return .sequence [] ⟨(← get).offset, (← get).offset⟩
      group := return none
      brackets := do
        let here : Span := ⟨(← get).offset, (← get).offset⟩
        return ⟨false, ⟨[], (← get).flags, here⟩, here⟩ }
  | depth + 1 =>
    let n := nestedReaders depth
    { disjunction := disjunctionWith n
      group := groupWith n
      brackets := bracketsWith n.brackets }

structure ParsedPattern where
  tree : Regex
  errors : List PatternError
  /-- The flags at the start of the pattern. -/
  flags : Flags

def ParsedPattern.hasErrors (p : ParsedPattern) : Bool :=
  !p.errors.isEmpty

def finish : Reading Unit := do
  let r ← get
  if r.head?.isSome then report .unmatchedParenthesis r.currentSpan

def pattern (chars : List SourceChar) : Reading Regex := do
  let tree ← (nestedReaders (chars.length + 1)).disjunction
  finish
  return tree

def parseChars (chars : List SourceChar) (flags : Flags) : ParsedPattern :=
  let (tree, r) := (pattern chars).run (.ofChars chars flags)
  ⟨tree, r.errors, flags⟩

def parsePattern (text : String) (flags : Flags) : ParsedPattern :=
  parseChars (plainChars text) flags

end PhpSyntax.Pattern
