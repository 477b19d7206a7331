/-
  PhpCheck/Rules/Hints.lean
  =========================
  **Hints of signatures** — the classes that a method or a closure names in its
  signature have to exist.  A finding about a parameter is about the line of the
  parameter.
-/
import PhpCheck.Rules.Finding
import PhpCheck.Symbols.Table

namespace PhpCheck

/-- The class that a hint names and that does not exist. -/
def SymbolTable.unknownClass? (t : SymbolTable) (hint : Option TypeHint) :
    Analysis (Option String) := do
  let some h := hint | return none
  if h.isBuiltin then return none
  let className := Text.withoutRoot h.name
  return if ← t.hasClass className then none else some className

def SymbolTable.paramFinding? (t : SymbolTable) (owner : HintOwner) (p : Param) :
    Analysis (Option Finding) := do
  let unknown ← t.unknownClass? p.hint
  return unknown.map fun className => ⟨.unknownParamClass owner p.name className, p.span.line?⟩

/-- The findings about a signature: of its parameters in order, then of its result. -/
def SymbolTable.signatureFindings (t : SymbolTable) (owner : HintOwner) (params : List Param)
    (result : Option TypeHint) : Analysis (List Finding) := do
  let ofParams ← params.mapM (t.paramFinding? owner)
  let ofResult := (← t.unknownClass? result).map fun className =>
    { complaint := .unknownResultClass owner className : Finding }
  return ofParams.filterMap id ++ ofResult.toList

def methodHintFindings (t : SymbolTable) (e : Env) : Node → Analysis (List Finding)
  | .method m =>
    match e.className.or (e.anonymousClass.map (·.name)) with
    | some className => t.signatureFindings (.method className m.name) m.params m.result
    | none => return []
  | .expr _ => return []

def closureHintFindings (t : SymbolTable) (_ : Env) : Node → Analysis (List Finding)
  | .expr (.closure _ c) => t.signatureFindings .closure c.params c.result
  | _ => return []

end PhpCheck
