/-
  PhpCheck/Code/Node.lean
  =======================
  **Nodes** — what a rule is handed: an expression, or the declaration of a
  method with its signature.  Every node is of one of a closed list of kinds,
  and a rule observes the nodes of one kind.
-/
import PhpCheck.Code.Expr

namespace PhpCheck

/-- Who may use a member of a class. -/
inductive Visibility where
  | anyone | family | classOnly
deriving DecidableEq, Repr, Inhabited

namespace Visibility

def text : Visibility → String
  | .anyone => "public"
  | .family => "protected"
  | .classOnly => "private"

def ofText? : String → Option Visibility
  | "public" => some .anyone
  | "protected" => some .family
  | "private" => some .classOnly
  | _ => none

theorem ofText?_text (v : Visibility) : ofText? v.text = some v := by cases v <;> rfl

end Visibility

/-- A method as a class body declares it. -/
structure MethodNode where
  name : String
  params : List Param := []
  result : Option TypeHint := none
  visibility : Visibility := .anyone
  isStatic : Bool := false
  isAbstract : Bool := false
  span : Span := {}

/-- A piece of code that rules look at. -/
inductive Node where
  | expr (e : Expr)
  | method (m : MethodNode)

inductive NodeKind where
  | variable | int | float | string | constant | array | binary | not | minus | plus | assign
  | compoundAssign | cast | instanceOf | new | classConstant | methodCall | staticCall | property
  | staticProperty | call | closure | method
deriving DecidableEq, Repr

namespace NodeKind

def all : List NodeKind :=
  [.variable, .int, .float, .string, .constant, .array, .binary, .not, .minus, .plus, .assign,
    .compoundAssign, .cast, .instanceOf, .new, .classConstant, .methodCall, .staticCall, .property,
    .staticProperty, .call, .closure, .method]

def name : NodeKind → String
  | .variable => "Variable"
  | .int => "LNumber"
  | .float => "DNumber"
  | .string => "String"
  | .constant => "ConstFetch"
  | .array => "Array"
  | .binary => "BinaryOp"
  | .not => "BooleanNot"
  | .minus => "UnaryMinus"
  | .plus => "UnaryPlus"
  | .assign => "Assign"
  | .compoundAssign => "AssignOp"
  | .cast => "Cast"
  | .instanceOf => "Instanceof"
  | .new => "New"
  | .classConstant => "ClassConstFetch"
  | .methodCall => "MethodCall"
  | .staticCall => "StaticCall"
  | .property => "PropertyFetch"
  | .staticProperty => "StaticPropertyFetch"
  | .call => "FuncCall"
  | .closure => "Closure"
  | .method => "ClassMethod"

def ofName? (s : String) : Option NodeKind := all.find? (·.name == s)

theorem ofName?_name (kind : NodeKind) : ofName? kind.name = some kind := by
  cases kind <;> decide

end NodeKind

def UnaryOp.kind : UnaryOp → NodeKind
  | .not => .not
  | .minus => .minus
  | .plus => .plus

def Expr.kind : Expr → NodeKind
  | .variable .. => .variable
  | .int .. => .int
  | .float .. => .float
  | .string .. => .string
  | .constant .. => .constant
  | .array .. => .array
  | .binary .. => .binary
  | .unary _ op _ => op.kind
  | .assign .. => .assign
  | .compoundAssign .. => .compoundAssign
  | .cast .. => .cast
  | .instanceOf .. => .instanceOf
  | .new .. => .new
  | .classConstant .. => .classConstant
  | .methodCall .. => .methodCall
  | .staticCall .. => .staticCall
  | .property .. => .property
  | .staticProperty .. => .staticProperty
  | .call .. => .call
  | .closure .. => .closure

namespace Node

def kind : Node → NodeKind
  | .expr e => e.kind
  | .method _ => .method

def span : Node → Span
  | .expr e => e.span
  | .method m => m.span

end Node

end PhpCheck
