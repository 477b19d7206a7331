/-
  PhpCheck/Proofs/Source/Reader.lean
  ==================================
  **A reader of source forms** — the expression that a source form stands for.

  The reader exists for the sake of proofs: that it reads back what was written
  shows that a source form has one expression only.  It takes more than is ever
  written, and makes no effort to say what is wrong with a text.

  There are three levels, as in writing.  A chain is a head with accesses and
  calls behind it, read from left to right.  A simple expression is an operand,
  or one operator with its operands.  Behind it there may be assignments.  What
  stands in brackets of any sort is an expression again and read by the reader
  of the next depth, `inner`.  Floating-point numbers are told apart by `float?`,
  of which nothing is assumed here.
-/
import PhpCheck.Code.Source

namespace PhpCheck.SourceReader

/-- What is read at the beginning of a text, and what is left of it. -/
abbrev Reader (α : Type) := List Char → Option (α × List Char)

/-! ### Marks and names -/

/-- What is left of a text behind a mark. -/
def after? : List Char → List Char → Option (List Char)
  | [], cs => some cs
  | mark :: marks, c :: cs => if mark = c then after? marks cs else none
  | _ :: _, [] => none

/-- Whether a text begins with a mark, and what is left of it then. -/
def flag (mark cs : List Char) : Bool × List Char :=
  match after? mark cs with
  | some rest => (true, rest)
  | none => (false, cs)

/-- The characters of names, namespaces included. -/
def isNameChar (c : Char) : Bool :=
  c.isAlphanum || c == '_' || c == '\\' || decide (0x80 ≤ c.toNat)

def readName : Reader String := fun cs =>
  match cs.takeWhile isNameChar with
  | [] => none
  | name => some (String.ofList name, cs.dropWhile isNameChar)

/-! ### Literals -/

def isNumberChar (c : Char) : Bool := c.isDigit || c == '.' || c == 'e'

/-- Splits a number off a text; behind the sign of an exponent it goes on with a minus. -/
def spanNumber (cs : List Char) : List Char × List Char :=
  let number := cs.takeWhile isNumberChar
  match number.getLast?, cs.dropWhile isNumberChar with
  | some 'e', '-' :: rest =>
    (number ++ '-' :: rest.takeWhile Char.isDigit, rest.dropWhile Char.isDigit)
  | _, rest => (number, rest)

def readNumber (float? : List Char → Option Binary64) : Reader Expr := fun cs =>
  let (number, rest) := spanNumber cs
  if number.all Char.isDigit then some (.int {} (Nat.ofDigitChars 10 number 0), rest)
  else (float? number).map fun value => (.float {} value, rest)

/-- The characters of a string literal up to the closing quote. -/
def readQuoted : Reader (List Char)
  | [] => none
  | '\'' :: rest => some ([], rest)
  | '\\' :: c :: rest => (readQuoted rest).map fun (cs, rest) => (c :: cs, rest)
  | c :: rest => (readQuoted rest).map fun (cs, rest) => (c :: cs, rest)

/-! ### Lists -/

section Lists

variable {α : Type} (item : Reader α) (close : Char)

/-- One item or more, with commas between them, up to the closing mark. -/
def readItems (cs : List Char) : Option (List α × List Char) :=
  match item cs with
  | some (x, ',' :: ' ' :: rest) =>
    if rest.length < cs.length then
      (readItems rest).map fun (xs, rest) => (x :: xs, rest)
    else none
  | some (x, c :: rest) => if c = close then some ([x], rest) else none
  | _ => none
termination_by cs.length

/-- A list up to its closing mark; the opening one was read before. -/
def readList : Reader (List α) := fun cs =>
  match readItems item close cs with
  | some read => some read
  | none =>
    match cs with
    | [] => none
    | c :: rest => if c = close then some ([], rest) else none

end Lists

/-! ### Signs between operands -/

/-- What can stand behind an operand, with a blank on each side. -/
inductive Connective where
  | binary (op : BinaryOp)
  | instanceOf
  | assign
  | compoundAssign (op : ArithOp)
  | arrow
deriving DecidableEq

namespace Connective

def text : Connective → String
  | .binary op => op.text
  | .instanceOf => "instanceof"
  | .assign => "="
  | .compoundAssign op => op.assignText
  | .arrow => "=>"

def all : List Connective :=
  BinaryOp.all.map .binary ++ ArithOp.all.map .compoundAssign ++ [.instanceOf, .assign, .arrow]

def ofText? (s : String) : Option Connective := all.find? (·.text == s)

theorem ofText?_text (i : Connective) : ofText? i.text = some i := by
  rcases i with (op | op | op | _) | _ | _ | op | _ <;> first | (cases op <;> decide) | decide

end Connective

def connective? : Reader Connective
  | ' ' :: cs =>
    match cs.dropWhile (· != ' ') with
    | [] => none
    | _ :: rest =>
      (Connective.ofText? (String.ofList (cs.takeWhile (· != ' ')))).map fun i => (i, rest)
  | _ => none

/-! ### Names and arguments -/

section Inner

variable (inner : Reader Expr)

/-- The name of a variable or member. -/
def readMember : Reader Name
  | '\x7b' :: cs =>
    match inner cs with
    | some (x, '\x7d' :: rest) => some (.computed x, rest)
    | _ => none
  | cs => (readName cs).map fun (name, rest) => (.literal name, rest)

def readArg : Reader Arg := fun cs =>
  let (byRef, cs) := flag ['&'] cs
  let (unpacked, cs) := flag ['.', '.', '.'] cs
  (inner cs).map fun (value, rest) => (⟨value, byRef, unpacked⟩, rest)

def readItem : Reader Item := fun cs =>
  match flag ['&'] cs with
  | (true, cs) => (inner cs).map fun (value, rest) => (⟨none, value, true⟩, rest)
  | (false, cs) =>
    match inner cs with
    | none => none
    | some (first, rest) =>
      match connective? rest with
      | some (.arrow, rest) =>
        let (byRef, rest) := flag ['&'] rest
        (inner rest).map fun (value, rest) => (⟨some first, value, byRef⟩, rest)
      | _ => some (⟨none, first, false⟩, rest)

/-! ### Closures -/

def readHint : Reader TypeHint := fun cs =>
  let (nullable, cs) := flag ['?'] cs
  (readName cs).map fun (name, rest) => (⟨name, nullable⟩, rest)

/-- The hint of a parameter, if there is one. -/
def readParamHint (cs : List Char) : Option TypeHint × List Char :=
  match readHint cs with
  | some (h, ' ' :: rest) => (some h, rest)
  | _ => (none, cs)

def readDefault : Reader (Option Expr) := fun cs =>
  match after? [' ', '=', ' '] cs with
  | some rest => (inner rest).map fun (x, rest) => (some x, rest)
  | none => some (none, cs)

def readVariableName : Reader String
  | '$' :: cs => readName cs
  | _ => none

def readParam : Reader Param := fun cs =>
  let (hint, cs) := readParamHint cs
  let (byRef, cs) := flag ['&'] cs
  let (variadic, cs) := flag ['.', '.', '.'] cs
  match readVariableName cs with
  | none => none
  | some (name, cs) =>
    (readDefault inner cs).map fun (default, rest) =>
      (⟨name, hint, default, byRef, variadic, {}⟩, rest)

def readCapture : Reader Capture := fun cs =>
  let (byRef, cs) := flag ['&'] cs
  (readVariableName cs).map fun (name, rest) => (⟨name, byRef⟩, rest)

def readCaptures : Reader (List Capture) := fun cs =>
  match after? [' ', 'u', 's', 'e', ' ', '('] cs with
  | some rest => readList readCapture ')' rest
  | none => some ([], cs)

def readResult : Reader (Option TypeHint) := fun cs =>
  match after? [':', ' '] cs with
  | some rest => (readHint rest).map fun (h, rest) => (some h, rest)
  | none => some (none, cs)

/-- A closure from the parenthesis before its parameters on. -/
def readSignature (isStatic byRef : Bool) : Reader Expr := fun cs => do
  let cs ← after? ['('] cs
  let (params, cs) ← readList (readParam inner) ')' cs
  let (captures, cs) ← readCaptures cs
  let (result, cs) ← readResult cs
  let cs ← after? [' ', '\x7b', ' ', '\x7d'] cs
  some (.closure {} ⟨params, captures, result, byRef, isStatic, {}⟩, cs)

def readClosure : Reader Expr := fun cs => do
  let (isStatic, cs) := flag ['s', 't', 'a', 't', 'i', 'c', ' '] cs
  let cs ← after? ['f', 'u', 'n', 'c', 't', 'i', 'o', 'n', ' '] cs
  let (byRef, cs) := flag ['&'] cs
  readSignature inner isStatic byRef cs

/-! ### Chains -/

/-- The name that an operand is: a constant is a literal name. -/
def asName : Expr → Name
  | .constant _ text => .literal text
  | x => .computed x

/-- The access or call that an expression goes on with. -/
def access? (x : Expr) : Reader Expr
  | ':' :: ':' :: '$' :: cs =>
    (readMember inner cs).map fun (name, rest) => (.staticProperty {} (asName x) name, rest)
  | ':' :: ':' :: cs =>
    match readMember inner cs with
    | some (member, '(' :: rest) =>
      (readList (readArg inner) ')' rest).map fun (args, rest) =>
        (.staticCall {} (asName x) member args, rest)
    | some (.literal name, rest) => some (.classConstant {} (asName x) name, rest)
    | _ => none
  | '-' :: '>' :: cs =>
    match readMember inner cs with
    | some (member, '(' :: rest) =>
      (readList (readArg inner) ')' rest).map fun (args, rest) =>
        (.methodCall {} x member args, rest)
    | some (member, rest) => some (.property {} x member, rest)
    | none => none
  | '(' :: cs =>
    (readList (readArg inner) ')' cs).map fun (args, rest) => (.call {} (asName x) args, rest)
  | _ => none

/-- All accesses and calls that an expression goes on with. -/
def chain (x : Expr) (cs : List Char) : Option (Expr × List Char) :=
  match access? inner x cs with
  | some (y, rest) => if rest.length < cs.length then chain y rest else none
  | none => some (x, cs)
termination_by cs.length

section Float

variable (float? : List Char → Option Binary64)

/-- What a chain begins with. -/
def readHead : Reader Expr
  | [] => none
  | '$' :: cs => (readMember inner cs).map fun (name, rest) => (.variable {} name, rest)
  | '\'' :: cs => (readQuoted cs).map fun (value, rest) => (.string {} (String.ofList value), rest)
  | '[' :: cs => (readList (readItem inner) ']' cs).map fun (items, rest) => (.array {} items, rest)
  | '(' :: cs =>
    match inner cs with
    | some (x, ')' :: rest) => if x.isOperatorOrNew then some (x, rest) else none
    | _ => none
  | c :: cs =>
    if c.isDigit then readNumber float? (c :: cs)
    else (readName (c :: cs)).map fun (name, rest) => (.constant {} name, rest)

def readChain : Reader Expr := fun cs => do
  let (x, cs) ← readHead inner float? cs
  chain inner x cs

/-! ### Operands -/

/-- Whether a text begins with a word and a blank that belongs to no sign, so that the word is
    not a constant. -/
def detached (cs : List Char) : Bool :=
  match cs.dropWhile isNameChar with
  | ' ' :: rest => (connective? (' ' :: rest)).isNone
  | _ => false

/-- The instantiation that is written like a call, after the word `new`. -/
def instantiate : Expr → Option Expr
  | .call _ className args => some (.new {} className args)
  | .methodCall _ receiver name args =>
    some (.new {} (.computed (.property {} receiver name)) args)
  | .staticCall _ className (.literal name) args =>
    some (.new {} (.computed (.classConstant {} className name)) args)
  | _ => none

def readNew : Reader Expr := fun cs => do
  let cs ← after? ['n', 'e', 'w', ' '] cs
  let (x, cs) ← readChain inner float? cs
  let x ← instantiate x
  some (x, cs)

def readOperand : Reader Expr := fun cs =>
  if detached cs then (readNew inner float? cs).or (readClosure inner cs)
  else readChain inner float? cs

/-! ### Operators -/

def readCast : Reader Expr := fun cs =>
  CastKind.all.findSome? fun kind => do
    let cs ← after? (kind.text.toList ++ [' ']) cs
    let (x, cs) ← readOperand inner float? cs
    some (.cast {} kind x, cs)

/-- An operator before its operand. -/
def readUnary : Reader Expr
  | '!' :: cs =>
    (readOperand inner float? cs).map fun (x, rest) => (.unary {} .not x, rest)
  | '-' :: cs =>
    (readOperand inner float? cs).map fun (x, rest) => (.unary {} .minus x, rest)
  | '+' :: cs =>
    (readOperand inner float? cs).map fun (x, rest) => (.unary {} .plus x, rest)
  | cs => readCast inner float? cs

/-- An operand, or one operator with its operands. -/
def readSimple : Reader Expr := fun cs =>
  match readOperand inner float? cs with
  | none => readUnary inner float? cs
  | some (x, rest) =>
    match connective? rest with
    | some (.binary op, rest) =>
      (readOperand inner float? rest).map fun (y, rest) => (.binary {} op x y, rest)
    | some (.instanceOf, rest) =>
      (readOperand inner float? rest).map fun (y, rest) => (.instanceOf {} x (asName y), rest)
    | _ => some (x, rest)

/-- The assignments that go on with an expression as target. -/
def assignments (x : Expr) (cs : List Char) : Option (Expr × List Char) :=
  match connective? cs with
  | some (.assign, rest) =>
    match readOperand inner float? rest with
    | some (y, rest) =>
      if rest.length < cs.length then assignments (.assign {} x y) rest else none
    | none => none
  | some (.compoundAssign op, rest) =>
    match readOperand inner float? rest with
    | some (y, rest) =>
      if rest.length < cs.length then assignments (.compoundAssign {} op x y) rest else none
    | none => none
  | _ => some (x, cs)
termination_by cs.length

def readWhole : Reader Expr := fun cs => do
  let (x, cs) ← readSimple inner float? cs
  assignments inner float? x cs

end Float

end Inner

/-- The reader of expressions in which brackets stand in each other at most so deep. -/
def read (float? : List Char → Option Binary64) : Nat → Reader Expr
  | 0 => fun _ => none
  | depth + 1 => readWhole (read float? depth) float?

end PhpCheck.SourceReader
