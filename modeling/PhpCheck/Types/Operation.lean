/-
  PhpCheck/Types/Operation.lean
  =============================
  **Types of operations** — what arithmetic makes of two types, which type a cast
  gives, and which constants the language itself has.

  Arithmetic on numbers gives a number: a float if either operand is one, and
  otherwise an integer, where a boolean counts as an integer.  Of other operands
  nothing is said, and the order of the operands does not matter
  (`PhpType.arithmetic?_comm`).
-/
import PhpCheck.Code.Operator
import PhpCheck.Text.Casing
import PhpCheck.Types.Basic

namespace PhpCheck

/-! ### Arithmetic -/

def Kind.asNumber : Kind → Kind
  | .boolean => .integer
  | kind => kind

/-- The kind of a sum, difference, product or power: float if either operand is, integer if both
    are, and otherwise unknown. -/
def Kind.arithmetic? (left right : Kind) : Option Kind :=
  if left.asNumber = .float ∨ right.asNumber = .float then some .float
  else if left.asNumber = .integer ∧ right.asNumber = .integer then some .integer
  else none

/-- The type of an arithmetic expression by the types of its operands; the result of arithmetic
    is never null. -/
def PhpType.arithmetic? (left right : PhpType) : Option PhpType :=
  (Kind.arithmetic? left.kind right.kind).map fun kind => .of kind false

theorem Kind.arithmetic?_comm (a b : Kind) : a.arithmetic? b = b.arithmetic? a := by
  simp only [Kind.arithmetic?, or_comm, and_comm]

theorem PhpType.arithmetic?_comm (a b : PhpType) : a.arithmetic? b = b.arithmetic? a := by
  simp only [PhpType.arithmetic?, Kind.arithmetic?_comm a.kind]

/-! ### Constants and casts -/

def constantType? (name : String) : Option PhpType :=
  if Text.sameName name "true" ∨ Text.sameName name "false" then some (.of .boolean false)
  else if Text.sameName name "null" then some .null
  else none

def CastKind.type : CastKind → PhpType
  | .int => .of .integer false
  | .float => .of .float false
  | .string => .of .string false
  | .bool => .of .boolean false
  | .array => .of .array false
  | .object => .object "stdClass"
  | .unset => .null

end PhpCheck
