/-
  PhpCheck/Types/Text.lean
  ========================
  **Types in text** — how a type is written in messages and documents, and
  which texts are read as types.

  A type is written as its keyword or class name, after a `?` if null is
  allowed.  Reading also takes blanks, the longer keywords, capitals in
  keywords, `T|null` and `null|T`, and class names that start at the global
  namespace.  Keywords are looked for before class names, so that a class whose
  name is a keyword cannot be written.
-/
import PhpCheck.Types.Basic
import PhpCheck.Text.Blank
import PhpCheck.Text.Casing

namespace PhpCheck

/-! ### Writing -/

def Kind.text : Kind → String
  | .mixed => "mixed"
  | .boolean => "bool"
  | .integer => "int"
  | .float => "float"
  | .string => "string"
  | .array => "array"
  | .callable => "callable"
  | .null => "null"
  | .object className => className
  | .static className => "static(" ++ className ++ ")"

/-- The text of a type; `null` needs no mark. -/
def PhpType.text (t : PhpType) : String :=
  if t.nullable ∧ t.kind ≠ .null then "?" ++ t.kind.text else t.kind.text

/-! ### Class names -/

def isClassNameChar (c : Char) : Bool := c.isAlphanum || c == '_' || c == '\\'

/-- Whether a text is the name of a class as seen from the global namespace. -/
def isClassName (cs : List Char) : Bool :=
  match cs with
  | [] => false
  | first :: _ =>
    !first.isDigit && first != '\\' && cs.getLast? != some '\\' && cs.all isClassNameChar

/-- Reads a class name, with blanks around it and backslashes before it. -/
def className? (cs : List Char) : Option String :=
  let name := (Text.trim cs).dropWhile (· == '\\')
  if isClassName name then some (String.ofList name) else none

/-! ### Reading -/

def Kind.ofKeyword? : String → Option Kind
  | "mixed" => some .mixed
  | "bool" | "boolean" => some .boolean
  | "int" | "integer" => some .integer
  | "float" | "double" => some .float
  | "string" => some .string
  | "array" => some .array
  | "callable" => some .callable
  | "null" | "void" => some .null
  | _ => none

/-- What stands between `static(` and a closing parenthesis at the end. -/
def staticBody? (cs : List Char) : Option (List Char) :=
  match cs with
  | 's' :: 't' :: 'a' :: 't' :: 'i' :: 'c' :: '(' :: rest =>
    if rest.getLast? = some ')' then some rest.dropLast else none
  | _ => none

def Kind.ofChars? (cs : List Char) : Option Kind :=
  match Kind.ofKeyword? (Text.lowercase (String.ofList cs)) with
  | some kind => some kind
  | none =>
    match staticBody? cs with
    | some body => (className? body).map .static
    | none => (className? cs).map .object

def splitBars : List Char → List (List Char)
  | [] => [[]]
  | c :: rest =>
    if c = '|' then [] :: splitBars rest
    else match splitBars rest with
      | part :: parts => (c :: part) :: parts
      | [] => [[c]]

def isNullPart (cs : List Char) : Bool := Text.sameName (String.ofList cs) "null"

/-- What a text without its question mark says: the kind in it, and whether a union with
    null allows null. -/
def splitUnion? (cs : List Char) : Option (List Char × Bool) :=
  match (splitBars cs).map Text.trim with
  | [part] => some (part, false)
  | [a, b] =>
    if isNullPart a = isNullPart b then none
    else some (if isNullPart a then b else a, true)
  | _ => none

/-- Splits the question mark off a text, and the blanks around what is left. -/
def splitMark (cs : List Char) : List Char × Bool :=
  match Text.trim cs with
  | '?' :: rest => (Text.trim rest, true)
  | rest => (rest, false)

def PhpType.ofText? (text : String) : Option PhpType := do
  let (cs, marked) := splitMark text.toList
  let (cs, union) ← splitUnion? cs
  let kind ← Kind.ofChars? cs
  pure (.of kind (marked || union))

structure InvalidType where
  text : String
deriving DecidableEq, Repr

def InvalidType.message (e : InvalidType) : String := "invalid type `" ++ e.text ++ "`"

/-- The type that a text stands for, or the text as the cause of a failure. -/
def PhpType.ofText (text : String) : Except InvalidType PhpType :=
  match ofText? text with
  | some t => .ok t
  | none => .error ⟨text⟩

end PhpCheck
