/-
  PhpCheck/Rules/MethodCalls.lean
  ===============================
  **Calls of methods** — a method that is called on an instance of a known class
  exists, can be used here, takes the arguments, and is written as declared.
-/
import PhpCheck.Rules.Arguments
import PhpCheck.Inference.Access

namespace PhpCheck

/-- The complaint about a method that a class has not: the nearest ancestor that has it keeps it
    private, or no class has it. -/
def SymbolTable.missingMethod (t : SymbolTable) (c : ClassInfo) (name : String) :
    List String → Analysis Complaint
  | [] => return .undefinedMethod c.name name
  | ancestor :: rest => do
    let parent ← t.classInfo ancestor
    match parent.methodIgnoringCase? name with
    | some m => return .privateMethodOfParent m.name parent.name
    | none => t.missingMethod c name rest

def SymbolTable.methodComplaints (t : SymbolTable) (e : Env) (settings : Settings)
    (c : ClassInfo) (name : String) (args : List Arg) : Analysis (List Complaint) := do
  let some m := c.methodIgnoringCase? name
    | return [← t.missingMethod c name c.ancestors]
  if !(← t.canUse e m.toMembership) then return [.inaccessibleMethod m.declaringClass m.name]
  let callee := Callee.method (m.declaringClass ++ "::" ++ m.name ++ "()")
  let complaints ← t.argComplaints e settings m.toSignature args callee
  return complaints
    ++ if m.name = name then [] else [.methodCase m.declaringClass m.name name]

/-- The findings about a call of a method; in a bound closure there are none. -/
def methodCallFindings (settings : Settings) (t : SymbolTable) (e : Env) :
    Node → Analysis (List Finding)
  | .expr (.methodCall _ receiver (.literal name) args) => do
    if e.inBoundClosure then return []
    let some className := (← receiver.infer t e).className? | return []
    let some c ← t.classInfo? className | return []
    return Finding.ofComplaints (← t.methodComplaints e settings c name args)
  | _ => return []

end PhpCheck
