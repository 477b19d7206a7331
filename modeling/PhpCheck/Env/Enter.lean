/-
  PhpCheck/Env/Enter.lean
  =======================
  **Entering constructs** — the environment inside a namespace, class, function,
  closure, loop, handler, call or assignment.

  A class body, a function body and a closure body start without narrowings; a
  class body forgets the variables and knows `$this`.  A bound closure lifts the
  visibility of members until a class or function is entered.
-/
import PhpCheck.Env.Basic
import PhpCheck.Types.Hint

namespace PhpCheck.Env

/-- Inside a namespace nothing is known but the file and its mode. -/
def enterNamespace (e : Env) (name : String) : Env :=
  { ofFile e.file e.strict with namespaceName := some name }

def this (type : PhpType) : NameMap PhpType := NameMap.empty.insert "this" type

def enterClass (e : Env) (name : String) : Env :=
  { e.step with
    className := some name
    functionName := none
    bindings := this (.object name)
    narrowings := .empty
    anonymousClass := none
    inBoundClosure := false
    calling := none }

/-- Inside a function or method: its parameters are bound, over variables of the same name. -/
def enterFunction (e : Env) (f : Signature) : Env :=
  { e.step with
    functionName := some f.name
    bindings := f.params.foldl (fun m p => m.insert p.name p.type) e.bindings
    narrowings := .empty
    anonymousClass := none
    inBoundClosure := false
    calling := none }

/-- Inside a closure that is bound to another class: visibility does not hold. -/
def enterBoundClosure (e : Env) : Env := { e.step with inBoundClosure := true }

def enterAnonymousClass (e : Env) (c : ClassInfo) : Env :=
  { e.step with
    className := none
    functionName := none
    bindings := this .mixed
    narrowings := .empty
    anonymousClass := some c }

/-- Binds a captured variable: with its type if it is known, as `?mixed` if it is captured by
    reference, and otherwise not at all. -/
def capture (e : Env) (m : NameMap PhpType) (c : Capture) : NameMap PhpType :=
  match e.bound? c.name with
  | some type => m.insert c.name type
  | none => if c.byRef then m.insert c.name (.mixed true) else m

/-- The variables of a closure body: parameters, then captured variables, then `$this`. -/
def closureVariables (e : Env) (params : List Param) (captures : List Capture) :
    NameMap PhpType :=
  let m := params.foldl (fun m p => m.insert p.name (p.type e.className)) .empty
  let m := captures.foldl e.capture m
  match e.className with
  | some name => m.insert "this" (.object name)
  | none => m

def enterClosure (e : Env) (params : List Param) (captures : List Capture) : Env :=
  { e.step with bindings := e.closureVariables params captures, narrowings := .empty }

def enterForeach (e : Env) (value : String) (key : Option String) : Env :=
  let e := e.assign value (.mixed true)
  let e := match key with
    | some key => e.assign key .mixed
    | none => e
  { e with calling := none }

def enterCatch (e : Env) (className name : String) : Env :=
  { e.assign name (.object className) with calling := none }

def enterCall (e : Env) (function : String) : Env := { e.step with calling := some function }

/-- Inside the value that is assigned to a variable; the assignments around it go on. -/
def enterAssignment (e : Env) (name : String) : Env :=
  { e with assigning := name :: e.assigning }

end PhpCheck.Env
