/-
  PhpCheck/Program/Declaration.lean
  =================================
  **Declarations** — what a program says about its classes and functions, before
  anything is inherited.

  A declaration is put together step by step: each step adds one member, name or
  modifier.  A type that is not declared is `?mixed`.
-/
import PhpCheck.Types.Basic
import PhpCheck.Code.Node
import PhpCheck.Json.Value
import PhpCheck.NameMap

namespace PhpCheck

inductive Constant where
  | null
  | bool (value : Bool)
  | int (value : Int)
  | float (value : Binary64)
  | string (value : String)
  | array (items : List Json)

def Constant.type : Constant → PhpType
  | .null => .null
  | .bool _ => .of .boolean false
  | .int _ => .of .integer false
  | .float _ => .of .float false
  | .string _ => .of .string false
  | .array _ => .of .array false

inductive ClassKind where
  | plain | interface | trait
deriving DecidableEq, Repr, Inhabited

namespace ClassKind

def text : ClassKind → String
  | .plain => "class"
  | .interface => "interface"
  | .trait => "trait"

def ofText? : String → Option ClassKind
  | "class" => some .plain
  | "interface" => some .interface
  | "trait" => some .trait
  | _ => none

theorem ofText?_text (kind : ClassKind) : ofText? kind.text = some kind := by cases kind <;> rfl

end ClassKind

/-- What is known of a value that no type is declared for. -/
def undeclared : PhpType := .mixed true

structure ParamDecl where
  name : String
  type : PhpType := undeclared
  optional : Bool := false
  variadic : Bool := false
  byRef : Bool := false
deriving DecidableEq, Repr

def ParamDecl.asOptional (p : ParamDecl) : ParamDecl := { p with optional := true }

/-- The parameter as one that takes all further arguments, or none. -/
def ParamDecl.asVariadic (p : ParamDecl) : ParamDecl :=
  { p with variadic := true, optional := true }

/-- A declared method.  `variadic` says that the body reads its arguments by itself. -/
structure MethodDecl where
  name : String
  visibility : Visibility := .anyone
  isStatic : Bool := false
  isAbstract : Bool := false
  params : List ParamDecl := []
  variadic : Bool := false
  result : PhpType := undeclared
deriving DecidableEq, Repr

def MethodDecl.withParam (m : MethodDecl) (p : ParamDecl) : MethodDecl :=
  { m with params := m.params ++ [p] }

structure PropertyDecl where
  name : String
  visibility : Visibility := .anyone
  isStatic : Bool := false
  type : PhpType := undeclared
deriving DecidableEq, Repr

/-- A declared class, interface or trait.  For an interface, `interfaces` are those it
    extends. -/
structure ClassDecl where
  name : String
  kind : ClassKind := .plain
  isAbstract : Bool := false
  parent : Option String := none
  interfaces : List String := []
  traits : List String := []
  methods : List MethodDecl := []
  properties : List PropertyDecl := []
  constants : NameMap Constant := .empty

namespace ClassDecl

def extending (c : ClassDecl) (parent : String) : ClassDecl := { c with parent := some parent }

def implementing (c : ClassDecl) (interface : String) : ClassDecl :=
  { c with interfaces := c.interfaces ++ [interface] }

def usingTrait (c : ClassDecl) (traitName : String) : ClassDecl :=
  { c with traits := c.traits ++ [traitName] }

def withMethod (c : ClassDecl) (m : MethodDecl) : ClassDecl :=
  { c with methods := c.methods ++ [m] }

def withProperty (c : ClassDecl) (p : PropertyDecl) : ClassDecl :=
  { c with properties := c.properties ++ [p] }

def withConstant (c : ClassDecl) (name : String) (value : Constant) : ClassDecl :=
  { c with constants := c.constants.insert name value }

end ClassDecl

/-- A declared function.  `variadic` says that the body reads its arguments by itself. -/
structure FunctionDecl where
  name : String
  params : List ParamDecl := []
  variadic : Bool := false
  result : PhpType := undeclared
deriving DecidableEq, Repr

def FunctionDecl.withParam (f : FunctionDecl) (p : ParamDecl) : FunctionDecl :=
  { f with params := f.params ++ [p] }

end PhpCheck
