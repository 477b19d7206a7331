/-
  PhpCheck/Rules/Report.lean
  ==========================
  **Reports** — what an analysis run found: diagnostics in the order in which
  they were made, each with its file and, if known, its line.

  A report is written as an object with the field `errors`; a diagnostic without
  a line has no such field.  Reading needs the file and the message of each.
-/
import PhpCheck.Json.Decode

namespace PhpCheck

structure Diagnostic where
  file : String
  message : String
  line : Option Nat := none
deriving DecidableEq, Repr

structure Report where
  errors : List Diagnostic := []
deriving DecidableEq, Repr

namespace Diagnostic

def text (d : Diagnostic) : String :=
  match d.line with
  | some line => d.file ++ ":" ++ toString line ++ ": " ++ d.message
  | none => d.file ++ ": " ++ d.message

def toJson (d : Diagnostic) : Json :=
  .object ([("file", .string d.file), ("message", .string d.message)]
    ++ (d.line.map fun line => ("line", Json.int line)).toList)

/-- Line numbers are smaller than this: they have 32 bits. -/
def lineBound : Nat := 0x100000000

def lineNumber? : Json → Option (Option Nat)
  | .null => some none
  | .int n => if 0 ≤ n ∧ n.toNat < lineBound then some (some n.toNat) else none
  | _ => none

def ofJson? (j : Json) : Option Diagnostic := do
  let o ← j.members?
  pure {
    file := ← Json.required o "file" Json.string?
    message := ← Json.required o "message" Json.string?
    line := ← Json.optional o "line" none lineNumber? }

end Diagnostic

namespace Report

def hasErrors (r : Report) : Bool := !r.errors.isEmpty

def total (r : Report) : Nat := r.errors.length

def messages (r : Report) : List String := r.errors.map (·.message)

def push (r : Report) (d : Diagnostic) : Report := ⟨r.errors ++ [d]⟩

def append (r : Report) (ds : List Diagnostic) : Report := ⟨r.errors ++ ds⟩

def toJson (r : Report) : Json := .object [("errors", .array (r.errors.map Diagnostic.toJson))]

def ofJson? (j : Json) : Option Report := do
  let o ← j.members?
  let errors ← Json.required o "errors" (Json.list? Diagnostic.ofJson?)
  pure ⟨errors⟩

end Report

end PhpCheck
