/-
  PhpCheck/Inference/Access.lean
  ==============================
  **Visibility** — whether a member can be used at a point of the code.

  A public member can be used everywhere, a private one in its own class, and a
  protected one also below it.  In a closure that is bound to another class
  visibility does not hold.
-/
import PhpCheck.Symbols.Table

namespace PhpCheck

/-- Whether a member can be used.  The class around is looked up only for a protected member of
    another class, and then the look-up can fail. -/
def SymbolTable.canUse (t : SymbolTable) (e : Env) (m : Membership) : Analysis Bool := do
  if e.inBoundClosure then return true
  let some current := e.className | return m.isPublic
  match m.visibility with
  | .anyone => return true
  | .classOnly => return decide (current = m.declaringClass)
  | .family =>
    if current = m.declaringClass then return true
    else return (← t.classInfo current).isSubclassOf m.declaringClass

end PhpCheck
