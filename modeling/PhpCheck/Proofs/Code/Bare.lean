/-
  PhpCheck/Proofs/Code/Bare.lean
  ==============================
  **Expressions without places** — an expression as it is when nothing is known of
  where it stands.

  Two expressions are equal up to their places when their bare expressions are
  equal.  The source form is that of the bare expression (`Expr.text_bare`).
-/
import PhpCheck.Code.Source

namespace PhpCheck

mutual

/-- An expression without its place and those of its parts. -/
def Expr.bare : Expr → Expr
  | .variable _ name => .variable {} name.bare
  | .int _ value => .int {} value
  | .float _ value => .float {} value
  | .string _ value => .string {} value
  | .constant _ name => .constant {} name
  | .array _ items => .array {} (bareItems items)
  | .binary _ op left right => .binary {} op left.bare right.bare
  | .unary _ op operand => .unary {} op operand.bare
  | .assign _ target value => .assign {} target.bare value.bare
  | .compoundAssign _ op target value => .compoundAssign {} op target.bare value.bare
  | .cast _ kind operand => .cast {} kind operand.bare
  | .instanceOf _ operand className => .instanceOf {} operand.bare className.bare
  | .new _ className args => .new {} className.bare (bareArgs args)
  | .classConstant _ className name => .classConstant {} className.bare name
  | .methodCall _ receiver method args =>
      .methodCall {} receiver.bare method.bare (bareArgs args)
  | .staticCall _ className method args =>
      .staticCall {} className.bare method.bare (bareArgs args)
  | .property _ receiver name => .property {} receiver.bare name.bare
  | .staticProperty _ className name => .staticProperty {} className.bare name.bare
  | .call _ function args => .call {} function.bare (bareArgs args)
  | .closure _ signature => .closure {} signature.bare

def Name.bare : Name → Name
  | .literal text => .literal text
  | .computed value => .computed value.bare

def bareArgs : List Arg → List Arg
  | [] => []
  | arg :: rest => arg.bare :: bareArgs rest

def Arg.bare : Arg → Arg
  | ⟨value, byRef, unpacked⟩ => ⟨value.bare, byRef, unpacked⟩

def bareItems : List Item → List Item
  | [] => []
  | item :: rest => item.bare :: bareItems rest

def Item.bare : Item → Item
  | ⟨key, value, byRef⟩ => ⟨bareOption key, value.bare, byRef⟩

def bareOption : Option Expr → Option Expr
  | none => none
  | some x => some x.bare

def bareParams : List Param → List Param
  | [] => []
  | param :: rest => param.bare :: bareParams rest

def Param.bare : Param → Param
  | ⟨name, hint, default, byRef, variadic, _⟩ =>
      ⟨name, hint, bareOption default, byRef, variadic, {}⟩

def Closure.bare : Closure → Closure
  | ⟨params, captures, result, byRef, isStatic, _⟩ =>
      ⟨bareParams params, captures, result, byRef, isStatic, {}⟩

end

/-! ### Parts -/

theorem bareArgs_eq_map (args : List Arg) : bareArgs args = args.map Arg.bare := by
  induction args with
  | nil => rfl
  | cons arg rest ih => rw [bareArgs, ih, List.map_cons]

theorem bareParams_eq_map (params : List Param) : bareParams params = params.map Param.bare := by
  induction params with
  | nil => rfl
  | cons p rest ih => rw [bareParams, ih, List.map_cons]

theorem Arg.value_bare (arg : Arg) : arg.bare.value = arg.value.bare := by
  cases arg
  rfl

theorem Arg.unpacked_bare (arg : Arg) : arg.bare.unpacked = arg.unpacked := by
  cases arg
  rfl

theorem Expr.args_bare (x : Expr) : x.bare.args = bareArgs x.args := by
  cases x <;> rfl

theorem Name.literal?_bare (name : Name) : name.bare.literal? = name.literal? := by
  cases name <;> rfl

theorem Expr.variableName?_bare (x : Expr) : x.bare.variableName? = x.variableName? := by
  cases x with
  | «variable» _ name => cases name <;> rfl
  | _ => rfl

/-! ### The source form -/

namespace Expr

theorem isOperator_bare (x : Expr) : x.bare.isOperator = x.isOperator := by
  cases x <;> rfl

theorem isOperatorOrNew_bare (x : Expr) : x.bare.isOperatorOrNew = x.isOperatorOrNew := by
  cases x <;> rfl

theorem asOperand_bare (x : Expr) (text : String) : x.bare.asOperand text = x.asOperand text := by
  rw [asOperand, asOperand, x.isOperator_bare]

theorem asReceiver_bare (x : Expr) (text : String) :
    x.bare.asReceiver text = x.asReceiver text := by
  rw [asReceiver, asReceiver, x.isOperatorOrNew_bare]

end Expr

mutual

/-- The source form does not depend on places, by induction on the expression. -/
theorem Expr.text_bare (x : Expr) : x.bare.text = x.text := by
  cases x with
  | «variable» _ name => rw [Expr.bare, Expr.text, Expr.text, name.braceText_bare]
  | int | float | string | constant => rfl
  | array _ items => rw [Expr.bare, Expr.text, Expr.text, itemTexts_bare items]
  | binary _ op left right =>
    rw [Expr.bare, Expr.text, Expr.text, left.text_bare, right.text_bare, left.asOperand_bare,
      right.asOperand_bare]
  | unary _ op operand =>
    rw [Expr.bare, Expr.text, Expr.text, operand.text_bare, operand.asOperand_bare]
  | assign _ target value =>
    rw [Expr.bare, Expr.text, Expr.text, target.text_bare, value.text_bare, value.asOperand_bare]
  | compoundAssign _ op target value =>
    rw [Expr.bare, Expr.text, Expr.text, target.text_bare, value.text_bare, value.asOperand_bare]
  | cast _ kind operand =>
    rw [Expr.bare, Expr.text, Expr.text, operand.text_bare, operand.asOperand_bare]
  | instanceOf _ operand className =>
    rw [Expr.bare, Expr.text, Expr.text, operand.text_bare, operand.asOperand_bare,
      className.text_bare]
  | new _ className args =>
    rw [Expr.bare, Expr.text, Expr.text, className.text_bare, argTexts_bare args]
  | classConstant _ className name => rw [Expr.bare, Expr.text, Expr.text, className.text_bare]
  | methodCall _ receiver method args =>
    rw [Expr.bare, Expr.text, Expr.text, receiver.text_bare, receiver.asReceiver_bare,
      method.braceText_bare, argTexts_bare args]
  | staticCall _ className method args =>
    rw [Expr.bare, Expr.text, Expr.text, className.text_bare, method.braceText_bare,
      argTexts_bare args]
  | property _ receiver name =>
    rw [Expr.bare, Expr.text, Expr.text, receiver.text_bare, receiver.asReceiver_bare,
      name.braceText_bare]
  | staticProperty _ className name =>
    rw [Expr.bare, Expr.text, Expr.text, className.text_bare, name.braceText_bare]
  | call _ function args =>
    rw [Expr.bare, Expr.text, Expr.text, function.text_bare, argTexts_bare args]
  | closure _ signature => rw [Expr.bare, Expr.text, Expr.text, signature.text_bare]

theorem Name.text_bare (name : Name) : name.bare.text = name.text := by
  cases name with
  | literal => rfl
  | computed value => rw [Name.bare, Name.text, Name.text, value.text_bare, value.asOperand_bare]

theorem Name.braceText_bare (name : Name) : name.bare.braceText = name.braceText := by
  cases name with
  | literal => rfl
  | computed value => rw [Name.bare, Name.braceText, Name.braceText, value.text_bare]

theorem argTexts_bare (args : List Arg) : argTexts (bareArgs args) = argTexts args := by
  match args with
  | [] => rfl
  | ⟨value, byRef, unpacked⟩ :: rest =>
    rw [bareArgs, argTexts, argTexts, Arg.bare, Arg.text, Arg.text, value.text_bare,
      argTexts_bare rest]

theorem itemTexts_bare (items : List Item) : itemTexts (bareItems items) = itemTexts items := by
  match items with
  | [] => rfl
  | ⟨key, value, byRef⟩ :: rest =>
    rw [bareItems, itemTexts, itemTexts, Item.bare, Item.text, Item.text, value.text_bare,
      keyText_bare key, itemTexts_bare rest]

theorem keyText_bare (key : Option Expr) : keyText (bareOption key) = keyText key := by
  match key with
  | none => rfl
  | some x => rw [bareOption, keyText, keyText, x.text_bare]

theorem paramTexts_bare (params : List Param) :
    paramTexts (bareParams params) = paramTexts params := by
  match params with
  | [] => rfl
  | ⟨name, hint, default, byRef, variadic, _⟩ :: rest =>
    simp only [bareParams, paramTexts, Param.bare, Param.text, defaultText_bare default,
      paramTexts_bare rest]

theorem defaultText_bare (default : Option Expr) :
    defaultText (bareOption default) = defaultText default := by
  match default with
  | none => rfl
  | some x => rw [bareOption, defaultText, defaultText, x.text_bare]

theorem Closure.text_bare (c : Closure) : c.bare.text = c.text := by
  match c with
  | ⟨params, captures, result, byRef, isStatic, _⟩ =>
    simp only [Closure.bare, Closure.text, paramTexts_bare params]

end

end PhpCheck
