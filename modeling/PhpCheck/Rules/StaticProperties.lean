/-
  PhpCheck/Rules/StaticProperties.lean
  ====================================
  **Static properties** — a property that is fetched through a class name
  exists, is static, and can be used here.
-/
import PhpCheck.Rules.Finding
import PhpCheck.Inference.Access

namespace PhpCheck

/-- The class through which a property is fetched: its name, or the complaints about it. -/
def SymbolTable.propertyOwner (t : SymbolTable) (e : Env) (written name : String) :
    Analysis (Except (List Complaint) String) :=
  match Text.withoutRoot written with
  | "self" | "static" => return (e.className.map .ok).getD (.error [])
  | "parent" => do
    let some current := e.className | return .error []
    let some c ← t.classInfo? current | return .error []
    return match c.parent with
    | some parent => .ok parent
    | none => .error [.accessWithoutParent current (e.functionName.getD "") name]
  | className => return .ok className

def SymbolTable.staticPropertyComplaints (t : SymbolTable) (e : Env) (fetch : Expr)
    (className name : String) : Analysis (List Complaint) := do
  let some c ← t.classInfo? className | return []
  let some p := c.property? name
    | return if e.isNarrowed fetch then [] else [.undefinedStaticProperty c.name name]
  if !p.isStatic then return [.staticAccessOfInstanceProperty p.declaringClass name]
  if ← t.canUse e p.toMembership then return []
  else return [.restrictedStaticProperty p.visibility name p.declaringClass]

def staticPropertyFindings (t : SymbolTable) (e : Env) : Node → Analysis (List Finding)
  | .expr (.staticProperty span (.literal written) (.literal name)) => do
    let fetch := Expr.staticProperty span (.literal written) (.literal name)
    match ← t.propertyOwner e written name with
    | .ok className =>
      return Finding.ofComplaints (← t.staticPropertyComplaints e fetch className name)
    | .error complaints => return Finding.ofComplaints complaints
  | _ => return []

end PhpCheck
