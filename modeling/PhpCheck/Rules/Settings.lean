/-
  PhpCheck/Rules/Settings.lean
  ============================
  **Settings of the rules** — switches with a default, read from an object that
  may leave them out but may not name others.
-/
import PhpCheck.Json.Decode

namespace PhpCheck

/-- The switches that rules share.  `argumentTypes`: the types of arguments are compared with
    those of the parameters. -/
structure Settings where
  argumentTypes : Bool := false
deriving DecidableEq, Repr

def Settings.argumentTypesField : String := "check_argument_types"

def Settings.ofJson? (j : Json) : Option Settings := do
  let o ← j.members?
  if o.all fun member => member.1 == argumentTypesField then
    let argumentTypes ← Json.optional o argumentTypesField false Json.bool?
    pure { argumentTypes }
  else none

end PhpCheck
