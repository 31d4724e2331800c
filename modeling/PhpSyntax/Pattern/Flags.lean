namespace PhpSyntax.Pattern

structure Flags where
  caseInsensitive : Bool := false
  multiline : Bool := false
  dotAll : Bool := false
  /-- White space and comments stand for nothing. -/
  extended : Bool := false
  /-- Letters beyond ASCII have a case too. -/
  unicodeCase : Bool := false
  /-- Classes such as digits go beyond ASCII. -/
  unicodeClass : Bool := false
deriving DecidableEq

namespace Flags

def empty : Flags := {}

def union (a b : Flags) : Flags :=
  { caseInsensitive := a.caseInsensitive || b.caseInsensitive
    multiline := a.multiline || b.multiline
    dotAll := a.dotAll || b.dotAll
    extended := a.extended || b.extended
    unicodeCase := a.unicodeCase || b.unicodeCase
    unicodeClass := a.unicodeClass || b.unicodeClass }

def difference (a b : Flags) : Flags :=
  { caseInsensitive := a.caseInsensitive && !b.caseInsensitive
    multiline := a.multiline && !b.multiline
    dotAll := a.dotAll && !b.dotAll
    extended := a.extended && !b.extended
    unicodeCase := a.unicodeCase && !b.unicodeCase
    unicodeClass := a.unicodeClass && !b.unicodeClass }

def contains (a b : Flags) : Bool :=
  b.difference a = empty

def letters : List (Flags × Char) :=
  [({ caseInsensitive := true }, 'i'), ({ multiline := true }, 'm'), ({ dotAll := true }, 's'),
   ({ extended := true }, 'x'), ({ unicodeCase := true }, 'u'), ({ unicodeClass := true }, 'U')]

def toText (flags : Flags) : String :=
  String.ofList ((letters.filter fun l => flags.contains l.1).map (·.2))

def ofModifier (letter : Char) : Flags :=
  match letter with
  | 'i' => { caseInsensitive := true }
  | 'm' => { multiline := true }
  | 's' => { dotAll := true }
  | 'x' => { extended := true }
  | 'u' => { unicodeCase := true }
  | _ => empty

def ofModifiers (modifiers : String) : Flags :=
  modifiers.toList.foldl (fun flags letter => flags.union (ofModifier letter)) empty

/-- The flags of a letter inside a pattern. Some letters are allowed but change nothing here. -/
def ofInline? (letter : Char) : Option Flags :=
  match letter with
  | 'i' => some { caseInsensitive := true }
  | 'm' => some { multiline := true }
  | 's' => some { dotAll := true }
  | 'x' => some { extended := true }
  | 'u' => some { unicodeCase := true }
  | 'U' => some { unicodeCase := true, unicodeClass := true }
  | 'J' | 'n' => some empty
  | _ => none

end Flags

structure FlagChange where
  enabled : Flags
  disabled : Flags
deriving DecidableEq

/-- The flags after a change; what is both set and cleared is cleared. -/
def FlagChange.apply (change : FlagChange) (flags : Flags) : Flags :=
  (flags.union change.enabled).difference change.disabled

end PhpSyntax.Pattern
