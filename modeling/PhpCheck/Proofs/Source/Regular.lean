/-
  PhpCheck/Proofs/Source/Regular.lean
  ===================================
  **Expressions that can be told by their text** — what an expression must be like
  to be the only one with its source form.

  An expression is regular (`Expr.Regular`) when its names are names and its
  numbers are not negative; any other text in place of a name could hold anything.
  That is not enough.  A computed name of a class or function is written like an
  operand, and some operands so written look like something else: a constant like
  a literal name, a property or class constant that is called like a method, an
  instantiation that is called or accessed like part of a longer class name.  A
  name is distinct (`Name.Distinct`, `Name.DistinctClass`, `Name.DistinctFunction`)
  when it is none of these that its place makes ambiguous.
-/
import PhpCheck.Proofs.Code.Bare
import PhpCheck.Proofs.Source.Token

namespace PhpCheck

open SourceReader (IsName)

/-! ### Names and numbers -/

def Name.Regular : Name → Prop
  | .literal text => IsName text
  | .computed _ => True

def TypeHint.Regular (h : TypeHint) : Prop := IsName h.name

structure Closure.Regular (c : Closure) : Prop where
  params : ∀ p ∈ c.params, IsName p.name ∧ ∀ h ∈ p.hint, h.Regular
  captures : ∀ capture ∈ c.captures, IsName capture.name
  result : ∀ h ∈ c.result, h.Regular

/-- The names of this expression are names, and its number is not negative. -/
def Expr.Regular : Expr → Prop
  | .variable _ name => name.Regular
  | .int _ value => 0 ≤ value
  | .float _ value => ∃ mantissa exponent, value = .finite false mantissa exponent
  | .constant _ name => IsName name
  | .instanceOf _ _ className => className.Regular
  | .new _ className _ => className.Regular
  | .classConstant _ className name => className.Regular ∧ IsName name
  | .methodCall _ _ method _ => method.Regular
  | .staticCall _ className method _ => className.Regular ∧ method.Regular
  | .property _ _ name => name.Regular
  | .staticProperty _ className name => className.Regular ∧ name.Regular
  | .call _ function _ => function.Regular
  | .closure _ signature => signature.Regular
  | .string .. | .array .. | .binary .. | .unary .. | .assign .. | .compoundAssign .. | .cast .. =>
    True

theorem Expr.asReceiver_text {x : Expr} (h : x.isOperatorOrNew = false) :
    x.asReceiver x.text = x.text := by
  simp [asReceiver, h]

/-! ### Names as expressions -/

/-- The expression that is written like the name. -/
def Name.asExpr : Name → Expr
  | .literal text => .constant {} text
  | .computed value => value

theorem Name.text_eq (name : Name) : name.text = name.asExpr.asOperand name.asExpr.text := by
  cases name with
  | literal text => rw [Name.text, Name.asExpr, Expr.text, Expr.asOperand]; rfl
  | computed value => rw [Name.text, Name.asExpr]

/-- The call that arguments behind an expression are read as. -/
def Expr.called : Expr → List Arg → Expr
  | .property _ receiver name, args => .methodCall {} receiver name args
  | .classConstant _ className name, args => .staticCall {} className (.literal name) args
  | .constant _ name, args => .call {} (.literal name) args
  | x, args => .call {} (.computed x) args

/-! ### Computed names -/

namespace Name

/-- The name is not computed by a constant, which is written like a literal name. -/
def Distinct : Name → Prop
  | .computed (.constant ..) => False
  | _ => True

/-- The name of a class with something behind it is also not computed by an instantiation. -/
def DistinctClass : Name → Prop
  | .computed (.constant ..) | .computed (.new ..) => False
  | _ => True

/-- The name of a function is also not computed by a property or a class constant. -/
def DistinctFunction : Name → Prop
  | .computed (.constant ..) | .computed (.new ..) | .computed (.property ..)
  | .computed (.classConstant ..) => False
  | _ => True

theorem DistinctClass.distinct {name : Name} (h : name.DistinctClass) : name.Distinct := by
  cases name with
  | literal => trivial
  | computed value => cases value <;> first | exact h | trivial

theorem DistinctFunction.distinctClass {name : Name} (h : name.DistinctFunction) :
    name.DistinctClass := by
  cases name with
  | literal => trivial
  | computed value => cases value <;> first | exact h | trivial

theorem DistinctClass.text_eq {name : Name} (h : name.DistinctClass) :
    name.text = name.asExpr.asReceiver name.asExpr.text := by
  have hnew : name.asExpr.isOperatorOrNew = name.asExpr.isOperator := by
    cases name with
    | literal => rfl
    | computed value => cases value <;> first | rfl | cases h
  rw [Name.text_eq, Expr.asOperand, Expr.asReceiver, hnew]

theorem DistinctFunction.bare_called {name : Name} (h : name.DistinctFunction) (s : Span)
    (args : List Arg) : (name.asExpr.called args).bare = (Expr.call s name args).bare := by
  cases name with
  | literal => rfl
  | computed value => cases value <;> first | rfl | cases h

end Name

/-- The class or function that this expression names is told by its text. -/
def Expr.Distinct : Expr → Prop
  | .instanceOf _ _ className => className.Distinct
  | .new _ className _ | .classConstant _ className _ | .staticCall _ className _ _
  | .staticProperty _ className _ => className.DistinctClass
  | .call _ function _ => function.DistinctFunction
  | _ => True

end PhpCheck
