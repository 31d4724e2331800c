import PhpSyntax.Source.Position

namespace PhpSyntax

structure SecondaryLocation where
  location : Location
  message : Option String
deriving DecidableEq

structure Finding where
  primary : Location
  message : String
  secondaries : List SecondaryLocation
deriving DecidableEq

namespace Finding

def ofPrimary (primary : Location) (message : String) : Finding :=
  ⟨primary, message, []⟩

def addSecondary (f : Finding) (location : Location) (message : Option String) : Finding :=
  { f with secondaries := f.secondaries ++ [⟨location, message⟩] }

end Finding

end PhpSyntax
