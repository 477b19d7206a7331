/-
  PhpCheck/Code/Source.lean
  =========================
  **Source form of expressions** — one text for each expression, which does not
  depend on where it stands.

  The text is the key under which a narrowed type is recorded.  Operands that
  are themselves operator expressions are put in parentheses, so that trees
  which differ in association only have different texts.
-/
import PhpCheck.Code.Expr
import PhpCheck.Decimal.Literal
import PhpCheck.Text.Joined

namespace PhpCheck

def TypeHint.text (h : TypeHint) : String := (if h.nullable then "?" else "") ++ h.name

def Capture.text (c : Capture) : String := (if c.byRef then "&" else "") ++ "$" ++ c.name

def parenthesised (s : String) : String := "(" ++ s ++ ")"

def braced (s : String) : String := "\x7b" ++ s ++ "\x7d"

/-- A string literal: quotes and backslashes are escaped, nothing else is. -/
def stringLiteral (s : String) : String :=
  "'" ++ String.ofList (s.toList.flatMap fun c => if c = '\'' ∨ c = '\\' then ['\\', c] else [c])
    ++ "'"

def listed (texts : List String) : String := parenthesised (Text.joined ", " texts)

namespace Expr

/-- Whether an expression stands in parentheses when it is an operand. -/
def isOperator : Expr → Bool
  | .binary .. | .unary .. | .assign .. | .compoundAssign .. | .cast .. | .instanceOf ..
  | .closure .. => true
  | _ => false

/-- Whether an expression stands in parentheses before an arrow. -/
def isOperatorOrNew : Expr → Bool
  | .new .. => true
  | e => e.isOperator

def asOperand (e : Expr) (text : String) : String :=
  if e.isOperator then parenthesised text else text

def asReceiver (e : Expr) (text : String) : String :=
  if e.isOperatorOrNew then parenthesised text else text

end Expr

mutual

def Expr.text : Expr → String
  | .variable _ name => "$" ++ name.braceText
  | .int _ value => toString value
  | .float _ value => value.text
  | .string _ value => stringLiteral value
  | .constant _ name => name
  | .array _ items => "[" ++ Text.joined ", " (itemTexts items) ++ "]"
  | .binary _ op left right =>
      left.asOperand left.text ++ " " ++ op.text ++ " " ++ right.asOperand right.text
  | .unary _ op operand => op.text ++ operand.asOperand operand.text
  | .assign _ target value => target.text ++ " = " ++ value.asOperand value.text
  | .compoundAssign _ op target value =>
      target.text ++ " " ++ op.assignText ++ " " ++ value.asOperand value.text
  | .cast _ kind operand => kind.text ++ " " ++ operand.asOperand operand.text
  | .instanceOf _ operand className =>
      operand.asOperand operand.text ++ " instanceof " ++ className.text
  | .new _ className args => "new " ++ className.text ++ listed (argTexts args)
  | .classConstant _ className name => className.text ++ "::" ++ name
  | .methodCall _ receiver method args =>
      receiver.asReceiver receiver.text ++ "->" ++ method.braceText ++ listed (argTexts args)
  | .staticCall _ className method args =>
      className.text ++ "::" ++ method.braceText ++ listed (argTexts args)
  | .property _ receiver name => receiver.asReceiver receiver.text ++ "->" ++ name.braceText
  | .staticProperty _ className name => className.text ++ "::$" ++ name.braceText
  | .call _ function args => function.text ++ listed (argTexts args)
  | .closure _ signature => signature.text

/-- The name of a class or function: a computed one is an operand. -/
def Name.text : Name → String
  | .literal text => text
  | .computed value => value.asOperand value.text

/-- The name of a variable or member: a computed one stands in braces. -/
def Name.braceText : Name → String
  | .literal text => text
  | .computed value => braced value.text

def argTexts : List Arg → List String
  | [] => []
  | arg :: rest => arg.text :: argTexts rest

def Arg.text : Arg → String
  | ⟨value, byRef, unpacked⟩ =>
      (if byRef then "&" else "") ++ (if unpacked then "..." else "") ++ value.text

def itemTexts : List Item → List String
  | [] => []
  | item :: rest => item.text :: itemTexts rest

def Item.text : Item → String
  | ⟨key, value, byRef⟩ => keyText key ++ (if byRef then "&" else "") ++ value.text

def keyText : Option Expr → String
  | none => ""
  | some key => key.text ++ " => "

def paramTexts : List Param → List String
  | [] => []
  | param :: rest => param.text :: paramTexts rest

def Param.text : Param → String
  | ⟨name, hint, default, byRef, variadic, _⟩ =>
      (match hint with | none => "" | some h => h.text ++ " ")
        ++ (if byRef then "&" else "") ++ (if variadic then "..." else "") ++ "$" ++ name
        ++ defaultText default

def defaultText : Option Expr → String
  | none => ""
  | some value => " = " ++ value.text

/-- A closure as written, with an empty body. -/
def Closure.text : Closure → String
  | ⟨params, captures, result, byRef, isStatic, _⟩ =>
      (if isStatic then "static " else "") ++ "function " ++ (if byRef then "&" else "")
        ++ listed (paramTexts params)
        ++ (if captures.isEmpty then ""
            else " use " ++ listed (captures.map Capture.text))
        ++ (match result with | none => "" | some h => ": " ++ h.text)
        ++ " " ++ braced " "

end

end PhpCheck
