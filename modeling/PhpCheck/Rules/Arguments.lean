/-
  PhpCheck/Rules/Arguments.lean
  =============================
  **Arguments of calls** — whether their number fits the parameters, and, if
  types are compared, whether their types do.

  An unpacked argument can stand for any number of arguments: with one, the
  number always fits, and nothing is compared from it on.  Arguments behind the
  last parameter of a variadic callee belong to that parameter.
-/
import PhpCheck.Rules.Finding
import PhpCheck.Rules.Settings
import PhpCheck.Inference.Basic

namespace PhpCheck

namespace Signature

def leastArgs (s : Signature) : Nat := (s.params.filter fun p => !p.optional).length

def mostArgs (s : Signature) : Option Nat := if s.isVariadic then none else some s.params.length

/-- The parameter that the argument at an index belongs to. -/
def paramAt? (s : Signature) (index : Nat) : Option ParamInfo :=
  (s.params[index]?).or (if s.isVariadic then s.params.getLast? else none)

/-- How many arguments a call counts as having. -/
def countedArgs (s : Signature) (args : List Arg) : Nat :=
  if args.any (·.unpacked) then (s.mostArgs).elim s.leastArgs (max s.leastArgs) else args.length

def fitsCount (s : Signature) (count : Nat) : Bool :=
  decide (s.leastArgs ≤ count) && s.mostArgs.all fun most => decide (count ≤ most)

def countComplaint? (s : Signature) (args : List Arg) (callee : Callee) : Option Complaint :=
  let count := s.countedArgs args
  if s.fitsCount count then none
  else some (.argumentCount callee count s.leastArgs s.mostArgs)

theorem leastArgs_le (s : Signature) : s.leastArgs ≤ s.params.length :=
  List.length_filter_le _ _

/-- With an unpacked argument the number always fits. -/
theorem countComplaint?_unpacked {s : Signature} {args : List Arg} (callee : Callee)
    (h : args.any (·.unpacked)) : s.countComplaint? args callee = none := by
  have hle := s.leastArgs_le
  unfold countComplaint? countedArgs fitsCount mostArgs
  rw [if_pos h]
  cases s.isVariadic <;> simp [hle]

end Signature

/-- Whether a value of one type can be passed where the other is expected: as types go, by the
    class hierarchy, or, outside of strict mode, from scalar to scalar. -/
def SymbolTable.acceptsArg (t : SymbolTable) (e : Env) (expected given : PhpType) :
    Analysis Bool := do
  if expected.accepts given then return true
  match expected.className?, given.className? with
  | some above, some below => return (← t.classInfo? below).elim false (·.isSubclassOf above)
  | _, _ => return !e.strict && expected.isScalar && given.isScalar

def SymbolTable.typeComplaints (t : SymbolTable) (e : Env) (s : Signature) (callee : Callee) :
    Nat → List Arg → Analysis (List Complaint)
  | _, [] => return []
  | index, arg :: rest => do
    if arg.unpacked then return []
    let some p := s.paramAt? index | return []
    let given ← arg.value.infer t e
    let fits ← t.acceptsArg e p.type given
    let others ← t.typeComplaints e s callee (index + 1) rest
    return if fits then others
      else .argumentType callee (index + 1) p.name p.type given :: others

/-- The complaints about the arguments of a call: one about their number, or those about their
    types. -/
def SymbolTable.argComplaints (t : SymbolTable) (e : Env) (settings : Settings) (s : Signature)
    (args : List Arg) (callee : Callee) : Analysis (List Complaint) :=
  match s.countComplaint? args callee with
  | some c => return [c]
  | none => if settings.argumentTypes then t.typeComplaints e s callee 0 args else return []

end PhpCheck
