/-
  PhpCheck/Inference/Members.lean
  ===============================
  **Types by name** — what the names of classes, members and functions say about
  a type: an instantiation, a class constant, a property, and the call of a
  method or function.

  A class that is not known says nothing, and a known class that has not the
  member says `?mixed`.  A declared `static` is the receiver itself.

  For the call of a method an extension may answer instead.  Its script is run
  step by step (`ReturnAnswer.run`), and what a step looked up stays remembered.
-/
import PhpCheck.Symbols.Table

namespace PhpCheck

/-! ### Classes -/

/-- The type of an instance of a named class: of `static` nothing is known, `self` is the class
    around. -/
def Env.instanceType? (e : Env) (name : String) : Option PhpType :=
  if name = "static" then some (.mixed true)
  else if name = "self" then e.className.map fun c => .object c
  else some (.object (Text.withoutRoot name))

namespace SymbolTable

def classConstantType? (t : SymbolTable) (e : Env) (className name : String) :
    Analysis (Option PhpType) := do
  let written := if className = "self" then e.className else some (Text.withoutRoot className)
  let some className := written | return none
  let some c ← t.classInfo? className | return none
  return (c.constant? name).map (·.type)

/-! ### Members -/

def propertyType (t : SymbolTable) (receiver : PhpType) (name : String) : Analysis PhpType := do
  let some className := receiver.className? | return .mixed
  let some c ← t.classInfo? className | return .mixed
  return ((c.property? name).map (·.type)).getD (.mixed true)

end SymbolTable

/-- What a declared result says about a call on a receiver: `static` is the receiver itself,
    with null if the declaration has it. -/
def PhpType.onReceiver (declared receiver : PhpType) : PhpType :=
  if declared.isStatic then (if declared.nullable then receiver.orNull else receiver)
  else declared

namespace SymbolTable

/-- What the first extension that supports a method says about a call of it; without one, the
    declared result says it. -/
def methodAnswer (t : SymbolTable) (e : Env) (call : Expr) (receiver : PhpType)
    (name : String) : Analysis ReturnAnswer := do
  let some className := receiver.className? | return .known .mixed
  let some c ← t.classInfo? className | return .known .mixed
  let some m := c.method? name | return .known (.mixed true)
  match (← t.returnExtensionsFor className).find? (·.supports m) with
  | some x => return x.answer m call e
  | none => return .known (m.result.onReceiver receiver)

/-! ### Functions -/

def callType (t : SymbolTable) (name : String) : Analysis PhpType := do
  return ((← t.functionInfo? name).map (·.result)).getD (.mixed true)

end SymbolTable

/-! ### Extensions for calls -/

/-- Runs the script of an extension for a call, with a given way to infer the parts of the call.
    The script goes on whatever comes of its steps. -/
def ReturnAnswer.run (t : SymbolTable) (part : CallPart → Analysis PhpType) :
    ReturnAnswer → Analysis PhpType
  | .known type => pure type
  | .failed cause => throw cause
  | .hasClass className next => do
    let outcome ← (t.hasClass className).attempt
    (next outcome).run t part
  | .consult className next => do
    let outcome ← (t.classInfo className).attempt
    (next outcome).run t part
  | .consultFunction name next => do
    let outcome ← (t.functionInfo? name).attempt
    (next outcome).run t part
  | .infer asked next => do
    let outcome ← (part asked).attempt
    (next outcome).run t part

end PhpCheck
