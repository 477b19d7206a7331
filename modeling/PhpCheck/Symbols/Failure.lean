/-
  PhpCheck/Symbols/Failure.lean
  =============================
  **Failures** — why an analysis step has no result.

  Inference does not fail on code it knows little about; a failure is a name
  that a caller asked for and that is not there, a class that cannot be loaded,
  or a hierarchy that is no hierarchy.
-/

namespace PhpCheck

inductive Failure where
  | undefinedVariable (name : String)
  | classNotFound (name : String)
  | functionNotFound (name : String)
  | classLoading (className reason : String)
  | circularHierarchy (className : String)
deriving DecidableEq, Repr

def Failure.message : Failure → String
  | .undefinedVariable name => "Undefined variable: $" ++ name
  | .classNotFound name => "Class " ++ name ++ " was not found while trying to analyse it"
  | .functionNotFound name => "Function " ++ name ++ " not found while trying to analyse it"
  | .classLoading className reason =>
      reason ++ " (error occurred while autoloading class " ++ className ++ ")"
  | .circularHierarchy className =>
      "internal error: circular class hierarchy involving " ++ className

end PhpCheck
