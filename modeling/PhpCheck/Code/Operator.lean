/-
  PhpCheck/Code/Operator.lean
  ===========================
  **Operators and casts** — the signs of the language between and before
  operands, grouped by what they have in common.

  The arithmetic operators and concatenation are one group because each has an
  assigning form, written with `=` behind the sign.  A sign determines its
  operator (`BinaryOp.ofText?_text`), so reading a sign is a search.
-/

namespace PhpCheck

/-- Connectives of truth values; each sign also has a word, which binds less. -/
inductive LogicalOp where
  | both | either | bothWord | eitherWord | oneWord
deriving DecidableEq, Repr

/-- Operators with an assigning form. -/
inductive ArithOp where
  | add | subtract | multiply | divide | modulo | power | concat
deriving DecidableEq, Repr

inductive CompareOp where
  | equal | notEqual | identical | notIdentical | less | lessOrEqual | greater | greaterOrEqual
deriving DecidableEq, Repr

inductive BinaryOp where
  | logical (op : LogicalOp)
  | arith (op : ArithOp)
  | compare (op : CompareOp)
  | coalesce
deriving DecidableEq, Repr

inductive UnaryOp where
  | not | minus | plus
deriving DecidableEq, Repr

inductive CastKind where
  | int | float | string | bool | array | object | unset
deriving DecidableEq, Repr

namespace LogicalOp

def all : List LogicalOp := [.both, .either, .bothWord, .eitherWord, .oneWord]

def text : LogicalOp → String
  | .both => "&&"
  | .either => "||"
  | .bothWord => "and"
  | .eitherWord => "or"
  | .oneWord => "xor"

end LogicalOp

namespace ArithOp

def all : List ArithOp := [.add, .subtract, .multiply, .divide, .modulo, .power, .concat]

def text : ArithOp → String
  | .add => "+"
  | .subtract => "-"
  | .multiply => "*"
  | .divide => "/"
  | .modulo => "%"
  | .power => "**"
  | .concat => "."

def assignText (op : ArithOp) : String := op.text ++ "="

def ofAssignText? (s : String) : Option ArithOp := all.find? (·.assignText == s)

theorem ofAssignText?_assignText (op : ArithOp) : ofAssignText? op.assignText = some op := by
  cases op <;> decide

end ArithOp

namespace CompareOp

def all : List CompareOp :=
  [.equal, .notEqual, .identical, .notIdentical, .less, .lessOrEqual, .greater, .greaterOrEqual]

def text : CompareOp → String
  | .equal => "=="
  | .notEqual => "!="
  | .identical => "==="
  | .notIdentical => "!=="
  | .less => "<"
  | .lessOrEqual => "<="
  | .greater => ">"
  | .greaterOrEqual => ">="

end CompareOp

namespace BinaryOp

def all : List BinaryOp :=
  LogicalOp.all.map .logical ++ ArithOp.all.map .arith ++ CompareOp.all.map .compare ++ [.coalesce]

def text : BinaryOp → String
  | .logical op => op.text
  | .arith op => op.text
  | .compare op => op.text
  | .coalesce => "??"

def ofText? (s : String) : Option BinaryOp := all.find? (·.text == s)

theorem ofText?_text (op : BinaryOp) : ofText? op.text = some op := by
  rcases op with op | op | op | _ <;> first | (cases op <;> decide) | decide

end BinaryOp

namespace UnaryOp

def text : UnaryOp → String
  | .not => "!"
  | .minus => "-"
  | .plus => "+"

end UnaryOp

namespace CastKind

def all : List CastKind := [.int, .float, .string, .bool, .array, .object, .unset]

def text : CastKind → String
  | .int => "(int)"
  | .float => "(double)"
  | .string => "(string)"
  | .bool => "(bool)"
  | .array => "(array)"
  | .object => "(object)"
  | .unset => "(unset)"

def ofText? (s : String) : Option CastKind := all.find? (·.text == s)

theorem ofText?_text (kind : CastKind) : ofText? kind.text = some kind := by
  cases kind <;> decide

end CastKind

end PhpCheck
