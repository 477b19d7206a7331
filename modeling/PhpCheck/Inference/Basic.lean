/-
  PhpCheck/Inference/Basic.lean
  =============================
  **Inference** — the type of an expression at a point of the code.

  What is not known is `mixed`; only a class that cannot be loaded or put
  together makes inference fail.  Operators with a fixed result, arithmetic on
  numbers, literals and known class constants come first.  For everything else
  a narrowed type holds, and only without one are variables, members and
  functions looked up, so that the receiver of a narrowed expression is not even
  looked at.
-/
import PhpCheck.Inference.Members
import PhpCheck.Types.Operation

namespace PhpCheck

/-- The narrowed type of an expression, or another one. -/
def Env.narrowedOr (e : Env) (x : Expr) (otherwise : PhpType) : PhpType :=
  (e.narrowing? x).getD otherwise

mutual

def Expr.infer (t : SymbolTable) (e : Env) : Expr → Analysis PhpType
  | .unary _ .not _ => pure (.of .boolean false)
  | .unary _ .minus x => x.infer t e
  | .unary _ .plus x => x.infer t e
  | .binary span op left right =>
    match op with
    | .logical _ => pure (.of .boolean false)
    | .arith .divide => pure (.of .float false)
    | .arith .modulo => pure (.of .integer false)
    | .arith .add | .arith .subtract | .arith .multiply | .arith .power => do
      let a ← left.infer t e
      let b ← right.infer t e
      return (a.arithmetic? b).getD (e.narrowedOr (.binary span op left right) .mixed)
    | .arith .concat | .compare _ | .coalesce =>
      pure (e.narrowedOr (.binary span op left right) .mixed)
  | .compoundAssign span op target value =>
    match op with
    | .divide => pure (.of .float false)
    | .add | .subtract | .multiply | .modulo | .power | .concat => do
      let a ← target.infer t e
      let b ← value.infer t e
      return (a.arithmetic? b).getD (e.narrowedOr (.compoundAssign span op target value) .mixed)
  | .int _ _ => pure (.of .integer false)
  | .float _ _ => pure (.of .float false)
  | .string _ _ => pure (.of .string false)
  | .array _ _ => pure (.of .array false)
  | .constant span name =>
    pure ((constantType? name).getD (e.narrowedOr (.constant span name) .mixed))
  | .cast _ kind _ => pure kind.type
  | .new span className args =>
    let known := className.literal?.bind e.instanceType?
    pure (known.getD (e.narrowedOr (.new span className args) .mixed))
  | .classConstant span className name => do
    let known ← match className with
      | .literal written => t.classConstantType? e written name
      | .computed _ => pure none
    return known.getD (e.narrowedOr (.classConstant span className name) .mixed)
  | .variable span name =>
    let bound := match name with
      | .literal written => (e.bound? written).getD (.mixed true)
      | .computed _ => .mixed
    pure (e.narrowedOr (.variable span name) bound)
  | .methodCall span receiver method args =>
    match e.narrowing? (.methodCall span receiver method args) with
    | some type => pure type
    | none =>
      match method with
      | .computed _ => pure .mixed
      | .literal name => do
        let call := Expr.methodCall span receiver method args
        let answer ← t.methodAnswer e call (← receiver.infer t e) name
        answer.run t fun
          | .receiver => receiver.infer t e
          | .argument index => inferArg t e args index
  | .property span receiver name =>
    match e.narrowing? (.property span receiver name) with
    | some type => pure type
    | none =>
      match name with
      | .computed _ => pure .mixed
      | .literal written => do t.propertyType (← receiver.infer t e) written
  | .call span function args =>
    match e.narrowing? (.call span function args) with
    | some type => pure type
    | none =>
      match function with
      | .computed _ => pure .mixed
      | .literal name => t.callType name
  | .assign span target value => pure (e.narrowedOr (.assign span target value) .mixed)
  | .instanceOf span operand className =>
    pure (e.narrowedOr (.instanceOf span operand className) .mixed)
  | .staticCall span className method args =>
    pure (e.narrowedOr (.staticCall span className method args) .mixed)
  | .staticProperty span className name =>
    pure (e.narrowedOr (.staticProperty span className name) .mixed)
  | .closure span signature => pure (e.narrowedOr (.closure span signature) .mixed)

/-- The type of an argument by its index; `mixed` if there is no such argument. -/
def inferArg (t : SymbolTable) (e : Env) : List Arg → Nat → Analysis PhpType
  | [], _ => pure .mixed
  | ⟨value, _, _⟩ :: _, 0 => value.infer t e
  | _ :: rest, index + 1 => inferArg t e rest index

end

/-- The type of a part of a call with this receiver and these arguments. -/
def CallPart.type (t : SymbolTable) (e : Env) (receiver : Expr) (args : List Arg) :
    CallPart → Analysis PhpType
  | .receiver => receiver.infer t e
  | .argument index => inferArg t e args index

end PhpCheck
