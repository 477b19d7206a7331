/-
  PhpCheck/Rules/Instantiations.lean
  ==================================
  **Instantiations** — a class that is instantiated exists, has instances, and
  its constructor takes the arguments.

  Without a method `__construct`, a method with the name of a class outside of
  namespaces is its constructor.
-/
import PhpCheck.Rules.Arguments

namespace PhpCheck

/-- The class that an instantiation names, if it can be told here. -/
def SymbolTable.instantiated? (t : SymbolTable) (e : Env) (written : String) :
    Analysis (Option String) :=
  match Text.withoutRoot written with
  | "static" => return none
  | "self" => return e.className
  | "parent" => do
    let some current := e.className | return none
    return (← t.classInfo? current).bind (·.parent)
  | className => return some className

def ClassInfo.constructor? (c : ClassInfo) (className : String) : Option MethodInfo :=
  (c.methodIgnoringCase? "__construct").or
    (if className.toList.contains '\\' then none else c.methodIgnoringCase? className)

def SymbolTable.instantiationComplaints (t : SymbolTable) (e : Env) (settings : Settings)
    (className : String) (args : List Arg) : Analysis (List Complaint) := do
  let some c ← t.classInfo? className | return [.instantiatedUnknown className]
  if c.isInterface then return [.instantiatedInterface className]
  if c.isAbstract then return [.instantiatedAbstract className]
  match c.constructor? className with
  | some m => t.argComplaints e settings m.toSignature args (.constructorOf className)
  | none => return if args.isEmpty then [] else [.noConstructor className]

def instantiationFindings (settings : Settings) (t : SymbolTable) (e : Env) :
    Node → Analysis (List Finding)
  | .expr (.new _ (.literal written) args) => do
    let some className ← t.instantiated? e written | return []
    return Finding.ofComplaints (← t.instantiationComplaints e settings className args)
  | _ => return []

end PhpCheck
