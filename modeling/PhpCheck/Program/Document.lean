/-
  PhpCheck/Program/Document.lean
  ==============================
  **Programs as documents** — the JSON form of a program, written and read.

  A document is an object with the fields `classes`, `functions` and
  `autoload_failures`, each of which may be missing; fields it does not know
  are skipped, whatever they hold.  Types stand in it as text.  A constant is
  its value: an integer in 64 bits with sign is an integer, any other number a
  float, and an object is no constant.
-/
import PhpCheck.Program.Basic
import PhpCheck.Json.Decode
import PhpCheck.Types.Text

namespace PhpCheck

/-! ### Writing -/

/-- JSON has finite numbers only: in the place of any other float stands `null`. -/
def Constant.toJson : Constant → Json
  | .null => .null
  | .bool value => .bool value
  | .int value => .int value
  | .float (.finite negative mantissa exponent) => .float (.finite negative mantissa exponent)
  | .float _ => .null
  | .string value => .string value
  | .array items => .array items

def ParamDecl.toJson (p : ParamDecl) : Json :=
  .object [("name", .string p.name), ("type", .string p.type.text), ("optional", .bool p.optional),
    ("variadic", .bool p.variadic), ("by_ref", .bool p.byRef)]

def MethodDecl.toJson (m : MethodDecl) : Json :=
  .object [("name", .string m.name), ("visibility", .string m.visibility.text),
    ("static", .bool m.isStatic), ("abstract", .bool m.isAbstract),
    ("parameters", .array (m.params.map ParamDecl.toJson)), ("variadic", .bool m.variadic),
    ("return_type", .string m.result.text)]

def PropertyDecl.toJson (p : PropertyDecl) : Json :=
  .object [("name", .string p.name), ("visibility", .string p.visibility.text),
    ("static", .bool p.isStatic), ("type", .string p.type.text)]

/-- The members of a class as an object, its constants in a given form. -/
def ClassDecl.members (c : ClassDecl) (constant : Constant → Json) : List (String × Json) :=
  [("name", .string c.name), ("kind", .string c.kind.text), ("abstract", .bool c.isAbstract),
    ("parent", (c.parent.map Json.string).getD .null),
    ("interfaces", .array (c.interfaces.map Json.string)),
    ("traits", .array (c.traits.map Json.string)),
    ("methods", .array (c.methods.map MethodDecl.toJson)),
    ("properties", .array (c.properties.map PropertyDecl.toJson)),
    ("constants",
      .object (c.constants.entries.map fun (name, value) => (name, constant value)))]

def ClassDecl.toJson (c : ClassDecl) : Json := .object (c.members Constant.toJson)

def FunctionDecl.toJson (f : FunctionDecl) : Json :=
  .object [("name", .string f.name), ("parameters", .array (f.params.map ParamDecl.toJson)),
    ("variadic", .bool f.variadic), ("return_type", .string f.result.text)]

def Program.document (classes : List ClassDecl) (functions : List FunctionDecl)
    (faults : NameMap String) : Json :=
  let reasons := faults.entries.map fun (name, reason) => (name, Json.string reason)
  .object [("classes", .array (classes.map ClassDecl.toJson)),
    ("functions", .array (functions.map FunctionDecl.toJson)),
    ("autoload_failures", .object reasons)]

/-! ### Reading -/

def Constant.ofJson? : Json → Option Constant
  | .null => some .null
  | .bool value => some (.bool value)
  | .int value =>
    if -Json.signedBound ≤ value ∧ value < Json.signedBound then some (.int value)
    else some (.float (Binary64.nearest (decide (value < 0)) value.natAbs 1))
  | .float value => some (.float value)
  | .string value => some (.string value)
  | .array items => if Json.itemsReadable items then some (.array items) else none
  | .object _ | .unreadable => none

/-- A word of a closed list: a string, or an object with that one key and nothing in it. -/
def word? {α : Type} (ofText? : String → Option α) : Json → Option α
  | .string text => ofText? text
  | .object [(text, .null)] => ofText? text
  | _ => none

def typeText? (j : Json) : Option PhpType := j.string?.bind PhpType.ofText?

def nullable? : Json → Option (Option String)
  | .null => some none
  | .string value => some (some value)
  | _ => none

/-- An object with values of one sort, of which a later one replaces an earlier one. -/
def nameMap? {α : Type} (value? : Json → Option α) (j : Json) : Option (NameMap α) := do
  let members ← j.members?
  let entries ← members.mapM fun (name, value) => (value? value).map fun value => (name, value)
  pure (.ofList entries)

def ParamDecl.ofJson? (j : Json) : Option ParamDecl := do
  let o ← j.members?
  pure {
    name := ← Json.required o "name" Json.string?
    type := ← Json.optional o "type" undeclared typeText?
    optional := ← Json.optional o "optional" false Json.bool?
    variadic := ← Json.optional o "variadic" false Json.bool?
    byRef := ← Json.optional o "by_ref" false Json.bool? }

def MethodDecl.ofJson? (j : Json) : Option MethodDecl := do
  let o ← j.members?
  pure {
    name := ← Json.required o "name" Json.string?
    visibility := ← Json.optional o "visibility" .anyone (word? Visibility.ofText?)
    isStatic := ← Json.optional o "static" false Json.bool?
    isAbstract := ← Json.optional o "abstract" false Json.bool?
    params := ← Json.optional o "parameters" [] (Json.list? ParamDecl.ofJson?)
    variadic := ← Json.optional o "variadic" false Json.bool?
    result := ← Json.optional o "return_type" undeclared typeText? }

def PropertyDecl.ofJson? (j : Json) : Option PropertyDecl := do
  let o ← j.members?
  pure {
    name := ← Json.required o "name" Json.string?
    visibility := ← Json.optional o "visibility" .anyone (word? Visibility.ofText?)
    isStatic := ← Json.optional o "static" false Json.bool?
    type := ← Json.optional o "type" undeclared typeText? }

/-- The class that an object describes, its constants in a given form. -/
def ClassDecl.ofJson? (constant? : Json → Option Constant) (j : Json) : Option ClassDecl := do
  let o ← j.members?
  pure {
    name := ← Json.required o "name" Json.string?
    kind := ← Json.optional o "kind" .plain (word? ClassKind.ofText?)
    isAbstract := ← Json.optional o "abstract" false Json.bool?
    parent := ← Json.optional o "parent" none nullable?
    interfaces := ← Json.optional o "interfaces" [] (Json.list? Json.string?)
    traits := ← Json.optional o "traits" [] (Json.list? Json.string?)
    methods := ← Json.optional o "methods" [] (Json.list? MethodDecl.ofJson?)
    properties := ← Json.optional o "properties" [] (Json.list? PropertyDecl.ofJson?)
    constants := ← Json.optional o "constants" .empty (nameMap? constant?) }

def FunctionDecl.ofJson? (j : Json) : Option FunctionDecl := do
  let o ← j.members?
  pure {
    name := ← Json.required o "name" Json.string?
    params := ← Json.optional o "parameters" [] (Json.list? ParamDecl.ofJson?)
    variadic := ← Json.optional o "variadic" false Json.bool?
    result := ← Json.optional o "return_type" undeclared typeText? }

namespace Program

/-- The program that a document describes, the constants of its classes in a given form. -/
def ofJson? (constant? : Json → Option Constant) (j : Json) : Option Program := do
  let o ← j.members?
  let classes ← Json.optional o "classes" [] (Json.list? (ClassDecl.ofJson? constant?))
  let functions ← Json.optional o "functions" [] (Json.list? FunctionDecl.ofJson?)
  let faults ← Json.optional o "autoload_failures" .empty (nameMap? Json.string?)
  pure (functions.foldl addFunction (classes.foldl addClass { faults }))

end Program

/-! ### Reading text -/

def documentDepth : Nat := 127

/-- The depth at which the constants of a class stand in a document. -/
def constantDepth : Nat := 4

def nestedConstant? (j : Json) : Option Constant :=
  if constantDepth + j.depth ≤ documentDepth then Constant.ofJson? j else none

/-- The program that the text of a document describes.  Of all that is read only constants can
    be nested too deep. -/
def Program.ofText? (text : String) : Option Program :=
  (Json.ofText? text).bind (ofJson? nestedConstant?)

end PhpCheck
