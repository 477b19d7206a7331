/-
  PhpCheck/Code/Expr.lean
  =======================
  **Expressions** — the trees that inference and the rules look at.

  Each expression knows where it stands.  Bodies of functions are not part of
  the tree: a closure is its signature.  Names of variables, classes, functions
  and members are literal or computed; the four uses share one type, and differ
  only in how a computed name is written.
-/
import PhpCheck.Code.Span
import PhpCheck.Code.Operator
import PhpCheck.Decimal.Binary64
import PhpCheck.Text.Casing

namespace PhpCheck

/-- The type that source code declares for a parameter or a result. -/
structure TypeHint where
  name : String
  nullable : Bool := false
deriving DecidableEq, Repr

structure Capture where
  name : String
  byRef : Bool := false
deriving DecidableEq, Repr

mutual

inductive Expr where
  | variable (span : Span) (name : Name)  -- `$name`
  | int (span : Span) (value : Int)  -- `42`
  | float (span : Span) (value : Binary64)  -- `3.14`
  | string (span : Span) (value : String)  -- `'text'`
  | constant (span : Span) (name : String)  -- `PHP_EOL`, `true`, `null`
  | array (span : Span) (items : List Item)  -- `[1, 'a' => 2]`
  | binary (span : Span) (op : BinaryOp) (left right : Expr)  -- `$a + $b`
  | unary (span : Span) (op : UnaryOp) (operand : Expr)  -- `!$a`
  | assign (span : Span) (target value : Expr)  -- `$a = $b`
  | compoundAssign (span : Span) (op : ArithOp) (target value : Expr)  -- `$a += $b`
  | cast (span : Span) (kind : CastKind) (operand : Expr)  -- `(int) $a`
  | instanceOf (span : Span) (operand : Expr) (className : Name)  -- `$a instanceof Foo`
  | new (span : Span) (className : Name) (args : List Arg)  -- `new Foo($a)`
  | classConstant (span : Span) (className : Name) (name : String)  -- `Foo::BAR`
  | methodCall (span : Span) (receiver : Expr) (method : Name) (args : List Arg)  -- `$a->foo($b)`
  | staticCall (span : Span) (className method : Name) (args : List Arg)  -- `Foo::bar($b)`
  | property (span : Span) (receiver : Expr) (name : Name)  -- `$a->foo`
  | staticProperty (span : Span) (className name : Name)  -- `Foo::$bar`
  | call (span : Span) (function : Name) (args : List Arg)  -- `foo($a)`
  | closure (span : Span) (signature : Closure)  -- `function ($a) use ($b) { }`

/-- A name, literal or computed. -/
inductive Name where
  | literal (text : String)
  | computed (value : Expr)

structure Arg where
  value : Expr
  byRef : Bool := false
  unpacked : Bool := false

structure Item where
  key : Option Expr := none
  value : Expr
  byRef : Bool := false

structure Param where
  name : String
  hint : Option TypeHint := none
  default : Option Expr := none
  byRef : Bool := false
  variadic : Bool := false
  span : Span := {}

structure Closure where
  params : List Param
  captures : List Capture := []
  result : Option TypeHint := none
  byRef : Bool := false
  isStatic : Bool := false
  span : Span := {}

end

instance : Inhabited Expr := ⟨.constant {} "null"⟩

def Name.literal? : Name → Option String
  | .literal text => some text
  | .computed _ => none

namespace Expr

def span : Expr → Span
  | .variable s _ | .int s _ | .float s _ | .string s _ | .constant s _ | .array s _
  | .binary s _ _ _ | .unary s _ _ | .assign s _ _ | .compoundAssign s _ _ _ | .cast s _ _
  | .instanceOf s _ _ | .new s _ _ | .classConstant s _ _ | .methodCall s _ _ _
  | .staticCall s _ _ _ | .property s _ _ | .staticProperty s _ _ | .call s _ _
  | .closure s _ => s

def variableName? : Expr → Option String
  | .variable _ (.literal name) => some name
  | _ => none

def args : Expr → List Arg
  | .new _ _ args | .methodCall _ _ _ args | .staticCall _ _ _ args | .call _ _ args => args
  | _ => []

end Expr

def Param.defaultsToNull (p : Param) : Bool :=
  match p.default with
  | some (.constant _ name) => Text.sameName name "null"
  | _ => false

/-- The names that a type hint uses for something else than a class. -/
def TypeHint.builtinNames : List String :=
  ["int", "float", "string", "bool", "array", "callable", "iterable", "void", "object", "mixed",
    "self", "static", "parent"]

/-- Whether a hint names no class. -/
def TypeHint.isBuiltin (h : TypeHint) : Bool := builtinNames.contains (Text.lowercase h.name)

end PhpCheck
