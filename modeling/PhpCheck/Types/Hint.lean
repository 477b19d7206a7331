/-
  PhpCheck/Types/Hint.lean
  ========================
  **Types of hints** — what the declared type of a parameter in source code says
  about its values.

  A keyword gives its kind, `self` the class around it, and a name the class so
  named.  The remaining words, such as `iterable` and `parent`, say nothing that
  a kind could hold.
-/
import PhpCheck.Types.Text
import PhpCheck.Code.Expr

namespace PhpCheck

def TypeHint.kind (h : TypeHint) (currentClass : Option String) : Kind :=
  match Text.lowercase h.name with
  | "string" => .string
  | "int" => .integer
  | "bool" => .boolean
  | "float" => .float
  | "callable" => .callable
  | "array" => .array
  | "self" => (currentClass.map Kind.object).getD .mixed
  | "iterable" | "object" | "mixed" | "static" | "parent" | "void" => .mixed
  | _ => .object (Text.withoutRoot h.name)

/-- The type of a parameter with a hint, which `nullable` can widen; without a hint nothing
    is known. -/
def PhpType.ofHint (hint : Option TypeHint) (nullable : Bool) (currentClass : Option String) :
    PhpType :=
  match hint with
  | none => .mixed true
  | some h => .of (h.kind currentClass) (nullable || h.nullable)

/-- The type of a parameter by its hint; a default value of null allows null. -/
def Param.type (p : Param) (currentClass : Option String) : PhpType :=
  .ofHint p.hint p.defaultsToNull currentClass

end PhpCheck
