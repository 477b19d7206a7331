/-
  PhpCheck/Env/Basic.lean
  =======================
  **Environments** — what is known at one point of the code: the file, the
  namespace, class and function around it, the types of the bound variables and
  the narrowed types of other expressions.

  An environment is a value: entering a construct or binding a variable gives a
  new one, so both arms of a branch start from the same environment and are
  joined afterwards.  The variables that are being assigned are known only until
  the next step of any other sort (`Env.step`).
-/
import PhpCheck.Symbols.Info
import PhpCheck.Symbols.Failure
import PhpCheck.Code.Source

namespace PhpCheck

/-- What is known at one point of the code. -/
structure Env where
  file : String
  strict : Bool := false
  namespaceName : Option String := none
  className : Option String := none
  functionName : Option String := none
  bindings : NameMap PhpType := .empty
  /-- Narrowed types of expressions other than variables, under their source form. -/
  narrowings : NameMap PhpType := .empty
  anonymousClass : Option ClassInfo := none
  /-- Whether this point is in a closure that is bound to another class. -/
  inBoundClosure : Bool := false
  /-- The function of whose call this point is an argument. -/
  calling : Option String := none
  assigning : List String := []

namespace Env

def ofFile (file : String) (strict : Bool) : Env := { file, strict }

/-- The environment for the next step, in which no variable is being assigned. -/
def step (e : Env) : Env := { e with assigning := [] }

/-! ### What is known -/

def bound? (e : Env) (name : String) : Option PhpType := e.bindings.get? name

def typeOf (e : Env) (name : String) : Except Failure PhpType :=
  match e.bound? name with
  | some type => .ok type
  | none => .error (.undefinedVariable name)

def hasVariable (e : Env) (name : String) : Bool := e.bindings.contains name

def isAssigning (e : Env) (name : String) : Bool := e.assigning.contains name

def narrowing? (e : Env) (x : Expr) : Option PhpType :=
  if e.narrowings.entries.isEmpty then none else e.narrowings.get? x.text

def isNarrowed (e : Env) (x : Expr) : Bool := (e.narrowing? x).isSome

/-- The narrowed type is the one under the source form, which need not be made if nothing is
    narrowed. -/
theorem narrowing?_eq (e : Env) (x : Expr) : e.narrowing? x = e.narrowings.get? x.text := by
  unfold narrowing?
  split
  · rename_i h
    rw [NameMap.get?, List.isEmpty_iff.mp h]; rfl
  · rfl

/-! ### Variables -/

def assign (e : Env) (name : String) (type : PhpType) : Env :=
  { e.step with bindings := e.bindings.insert name type }

def unset (e : Env) (name : String) : Env :=
  { e.step with bindings := e.bindings.erase name }

def unset? (e : Env) (name : String) : Except Failure Env :=
  if e.hasVariable name then .ok (e.unset name) else .error (.undefinedVariable name)

/-- Narrows an expression to an instance of a class: a plain variable is bound to the class, of
    another expression the class is recorded under its source form. -/
def narrow (e : Env) (x : Expr) (className : String) : Env :=
  match x.variableName? with
  | some name => e.assign name (.object className)
  | none => { e.step with narrowings := e.narrowings.insert x.text (.object className) }

/-- Where two branches meet: the variables that both bind, each with the join of its types. -/
def intersect (e other : Env) : Env :=
  { e.step with
    bindings := e.bindings.filterMap fun name t => (other.bound? name).map t.join }

def add (e other : Env) : Env := { e.step with bindings := e.bindings.update other.bindings }

theorem bound?_intersect (e other : Env) (name : String) :
    (e.intersect other).bound? name
      = (e.bound? name).bind fun t => (other.bound? name).map t.join :=
  NameMap.get?_filterMap _ _ _

theorem bound?_assign (e : Env) (name key : String) (type : PhpType) :
    (e.assign name type).bound? key = if key = name then some type else e.bound? key :=
  NameMap.get?_insert _ _ _ _

theorem narrowing?_narrow (e : Env) {x : Expr} (hx : x.variableName? = none) (y : Expr)
    (className : String) :
    (e.narrow x className).narrowing? y
      = if y.text = x.text then some (.object className) else e.narrowing? y := by
  rw [narrowing?_eq, narrowing?_eq, narrow, hx]
  exact NameMap.get?_insert _ _ _ _

end Env

end PhpCheck
