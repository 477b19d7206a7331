/-
  PhpCheck/Symbols/Info.lean
  ==========================
  **Symbols** — everything known about a class, a member or a function after
  declarations were put together: inherited members included, relative names in
  types replaced by classes.

  A function and a method can be called in the same way; what a call needs to
  know is their signature.  A method and a property can be seen from the same
  places; what visibility needs to know is their membership.
-/
import PhpCheck.Program.Declaration
import PhpCheck.Text.Casing

namespace PhpCheck

structure ParamInfo where
  name : String
  type : PhpType
  optional : Bool := false
  variadic : Bool := false
  byRef : Bool := false
deriving DecidableEq, Repr

/-- What can be called: a function, or the calling side of a method.  `variadic` says that the
    body reads its arguments by itself. -/
structure Signature where
  name : String
  params : List ParamInfo := []
  variadic : Bool := false
  result : PhpType
deriving DecidableEq, Repr

def Signature.isVariadic (s : Signature) : Bool := s.variadic || s.params.any (·.variadic)

/-- Where a member belongs and who may use it. -/
structure Membership where
  declaringClass : String
  visibility : Visibility := .anyone
  isStatic : Bool := false
deriving DecidableEq, Repr

def Membership.isPublic (m : Membership) : Bool := decide (m.visibility = .anyone)

def Membership.isPrivate (m : Membership) : Bool := decide (m.visibility = .classOnly)

structure MethodInfo extends Membership, Signature where
  isAbstract : Bool := false
deriving DecidableEq, Repr

structure PropertyInfo extends Membership where
  name : String
  type : PhpType
deriving DecidableEq, Repr

structure ClassInfo where
  name : String
  kind : ClassKind := .plain
  declaredAbstract : Bool := false
  parent : Option String := none
  /-- Parent, grandparent and so on, the nearest first. -/
  ancestors : List String := []
  /-- All interfaces, those of ancestors and of interfaces included. -/
  interfaces : List String := []
  methods : NameMap MethodInfo := .empty
  properties : NameMap PropertyInfo := .empty
  constants : NameMap Constant := .empty

namespace ClassInfo

def isInterface (c : ClassInfo) : Bool := decide (c.kind = .interface)

def isTrait (c : ClassInfo) : Bool := decide (c.kind = .trait)

/-- Whether the class has no instances of its own; interfaces and traits never have. -/
def isAbstract (c : ClassInfo) : Bool := c.declaredAbstract || decide (c.kind ≠ .plain)

/-- Whether a name is that of an ancestor or of an interface.  No class is below itself by
    this. -/
def isSubclassOf (c : ClassInfo) (name : String) : Bool :=
  c.ancestors.contains name || c.interfaces.contains name

/-- The method of just this name. -/
def method? (c : ClassInfo) (name : String) : Option MethodInfo := c.methods.get? name

/-- The method of this name, or else one of this name up to case, as calls find it. -/
def methodIgnoringCase? (c : ClassInfo) (name : String) : Option MethodInfo :=
  (c.method? name).or
    ((c.methods.entries.find? fun entry => Text.sameName entry.1 name).map (·.2))

def property? (c : ClassInfo) (name : String) : Option PropertyInfo := c.properties.get? name

def constant? (c : ClassInfo) (name : String) : Option Constant := c.constants.get? name

end ClassInfo

end PhpCheck
