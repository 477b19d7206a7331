/-
  PhpCheck/Json/Decode.lean
  =========================
  **Fields of a document** — what the readers of documents share: a value of the
  wanted sort, or a field of an object that is required, or may be missing and
  then has a default.  A field that stands twice is refused.
-/
import PhpCheck.Json.Reader

namespace PhpCheck.Json

def string? : Json → Option String
  | .string value => some value
  | _ => none

def bool? : Json → Option Bool
  | .bool value => some value
  | _ => none

def members? : Json → Option (List (String × Json))
  | .object members => some members
  | _ => none

def list? {α : Type} (item? : Json → Option α) : Json → Option (List α)
  | .array items => items.mapM item?
  | _ => none

/-- The value of a member, if there is just one with the key; `missing` if there is none. -/
def field {α : Type} (members : List (String × Json)) (key : String)
    (missing : Option α) (value? : Json → Option α) : Option α :=
  match members.filter fun member => member.1 == key with
  | [] => missing
  | [member] => value? member.2
  | _ => none

def required {α : Type} (members : List (String × Json)) (key : String)
    (value? : Json → Option α) : Option α :=
  field members key none value?

def optional {α : Type} (members : List (String × Json)) (key : String) (default : α)
    (value? : Json → Option α) : Option α :=
  field members key (some default) value?

end PhpCheck.Json
