/-
  PhpCheck/Rules/StaticCalls.lean
  ===============================
  **Static calls** — a method that is called through a class name, from inside a
  class, exists, is static, can be used here, takes the arguments, and is
  written as declared.

  A call through `parent` from an instance method is a call of that instance;
  of those only the arguments of the parent's constructor are looked at.
-/
import PhpCheck.Rules.Arguments

namespace PhpCheck

/-- The complaint about the visibility of a static method for a class: a private method of an
    ancestor, or a method of any other class that is not public. -/
def ClassInfo.restricted? (current : ClassInfo) (currentName : String) (m : MethodInfo) :
    Option Complaint :=
  let complaint := Complaint.restrictedStaticMethod m.visibility m.name m.declaringClass
  if m.declaringClass = currentName then none
  else if current.ancestors.contains m.declaringClass then
    if m.isPrivate then some complaint else none
  else if m.isPublic then none
  else some complaint

def SymbolTable.staticMethodComplaints (t : SymbolTable) (e : Env) (settings : Settings)
    (current : ClassInfo) (currentName className name : String) (args : List Arg) :
    Analysis (List Complaint) := do
  let some target ← t.classInfo? className | return []
  let some m := target.methodIgnoringCase? name | return [.undefinedStaticMethod className name]
  if !m.isStatic then return [.staticCallOfInstanceMethod className m.name]
  if let some complaint := current.restricted? currentName m then return [complaint]
  let callee := Callee.staticMethod (className ++ "::" ++ m.name ++ "()")
  let complaints ← t.argComplaints e settings m.toSignature args callee
  return complaints ++ if m.name = name then [] else [.staticMethodCase className m.name name]

/-- The complaints about a call of an instance method of the parent. -/
def SymbolTable.parentCallComplaints (t : SymbolTable) (e : Env) (settings : Settings)
    (parent name : String) (args : List Arg) : Analysis (List Complaint) := do
  if !Text.sameName name "__construct" then return []
  let c ← t.classInfo parent
  let some m := c.methodIgnoringCase? "__construct" | return []
  t.argComplaints e settings m.toSignature args .parentConstructor

def ClassInfo.isInstanceMethod (c : ClassInfo) (name : String) : Bool :=
  (c.methodIgnoringCase? name).any fun m => !m.isStatic

def SymbolTable.staticCallComplaints (t : SymbolTable) (e : Env) (settings : Settings)
    (currentName written name : String) (args : List Arg) : Analysis (List Complaint) := do
  let some current ← t.classInfo? currentName | return []
  match Text.withoutRoot written with
  | "self" | "static" =>
    t.staticMethodComplaints e settings current currentName currentName name args
  | "parent" =>
    let function := e.functionName.getD ""
    let some parent := current.parent | return [.callWithoutParent currentName function name]
    if current.isInstanceMethod function then
      t.parentCallComplaints e settings parent name args
    else t.staticMethodComplaints e settings current currentName parent name args
  | className => t.staticMethodComplaints e settings current currentName className name args

def staticCallFindings (settings : Settings) (t : SymbolTable) (e : Env) :
    Node → Analysis (List Finding)
  | .expr (.staticCall _ (.literal written) (.literal name) args) => do
    let some currentName := e.className | return []
    return Finding.ofComplaints
      (← t.staticCallComplaints e settings currentName written name args)
  | _ => return []

end PhpCheck
