/-
  PhpCheck/Proofs/Env/BoundClosure.lean
  =====================================
  **Inside a bound closure** — how far a bound closure lifts the visibility of
  members.

  It does so up to the next named class, function or namespace, whatever else is
  entered in between (`Env.bound_since`).  The body of an anonymous class is not
  among these: right inside it, before its first method, the closure around it
  still counts, so a private member of any class can be used there
  (`Fork.bound_in_anonymous`).
-/
import PhpCheck.Inference.Access
import PhpCheck.Proofs.Env.Walk

namespace PhpCheck

/-- Whether visibility holds after the move, whatever was the case before it. -/
def Move.restoresVisibility : Move → Bool
  | enterNamespace _ | enterClass _ | enterFunction _ => true
  | flow _ | enterBoundClosure | enterAnonymousClass _ | enterClosure .. | enterForeach ..
  | enterCatch .. | enterCall _ | enterAssignment _ | intersect _ | add _ => false

/-- A private member can be used in its class, and in a bound closure. -/
theorem SymbolTable.canUse_private (t : SymbolTable) (e : Env) {m : Membership}
    (hv : m.visibility = .classOnly) :
    t.canUse e m = pure (e.inBoundClosure || decide (e.className = some m.declaringClass)) := by
  unfold canUse
  cases e.inBoundClosure with
  | true => rfl
  | false =>
    cases hc : e.className with
    | none => simp [Membership.isPublic, hv]
    | some current => simp [hv]

namespace Env

variable {e a : Env} {move : Move} {moves : List Move}

theorem inBoundClosure_apply (h : move.apply e = .ok a) :
    a.inBoundClosure = true ↔
      move = .enterBoundClosure ∨ move.restoresVisibility = false ∧ e.inBoundClosure = true := by
  cases move with
  | flow step =>
    have hsame : a.inBoundClosure = e.inBoundClosure :=
      (congrArg Env.inBoundClosure (eq_step_of_apply h)).trans rfl
    simp [hsame, Move.restoresVisibility]
  | enterForeach value key =>
    cases h
    cases key <;> simp [Move.restoresVisibility, enterForeach, assign, step]
  | enterBoundClosure =>
    cases h
    simp [enterBoundClosure]
  | enterNamespace | enterClass | enterFunction =>
    cases h
    simp [Move.restoresVisibility, enterNamespace, ofFile, enterClass, enterFunction]
  | enterAnonymousClass | enterClosure | enterCatch | enterCall | enterAssignment | intersect | add =>
    cases h
    simp [Move.restoresVisibility, enterAnonymousClass, enterClosure, enterCatch, enterCall,
      enterAssignment, intersect, add, assign, step]

/-- **How far a bound closure lifts visibility.**  After a walk from the beginning of a file it
    does just if a bound closure was entered, and after it no named class, function or namespace;
    so in a class that is entered later by its name, or in a method, it does not, however the walk
    goes on, until the next bound closure.  A private member of a class other than the one around
    can be used just where visibility is lifted. -/
theorem bound_since {file : String} {strict : Bool}
    (h : (ofFile file strict).walk moves = .ok a) :
    (a.inBoundClosure = true ↔
      Since (· = .enterBoundClosure) (·.restoresVisibility = false) moves) ∧
    (∀ before move after, moves = before ++ move :: after → move.restoresVisibility = true →
      .enterBoundClosure ∉ after → a.inBoundClosure = false) ∧
    ∀ (t : SymbolTable) {m : Membership}, m.visibility = .classOnly →
      a.className ≠ some m.declaringClass → t.canUse a m = pure a.inBoundClosure := by
  have hsince : a.inBoundClosure = true ↔
      Since (· = .enterBoundClosure) (·.restoresVisibility = false) moves := by
    refine holds_iff_since (P := fun b => b.inBoundClosure = true) ?_ ?_ h
    · simp [ofFile]
    · exact inBoundClosure_apply
  refine ⟨hsince, ?_, ?_⟩
  · rintro before move after rfl hrestores hafter
    rw [Bool.eq_false_iff, ne_eq, hsince]
    refine not_since_of_ended ?_ ?_ ?_
    · rintro rfl
      cases hrestores
    · simp [hrestores]
    · rintro later hlater rfl
      exact hafter hlater
  · intro t m hv hne
    rw [t.canUse_private a hv, decide_eq_false hne, Bool.or_false]

end Env

namespace Fork

/-- A class without a name. -/
def unnamed : ClassInfo := { name := "class@anonymous" }

/-- The private member of a dog. -/
def collar : Membership := { declaringClass := "Dog", visibility := .classOnly }

/-- In a named class within a bound closure the collar of a dog is out of reach, also in a class
    without a name that stands there. -/
theorem collar_out_of_reach :
    ∃ a, (Env.ofFile "dog.php" true).walk
        [.enterBoundClosure, .enterClass "Vet", .enterAnonymousClass unnamed] = .ok a ∧
      collar.visibility = .classOnly ∧ a.className ≠ some collar.declaringClass ∧
      a.inBoundClosure = false ∧ plain.canUse a collar = pure false := by
  have hwalk : (Env.ofFile "dog.php" true).walk
      [.enterBoundClosure, .enterClass "Vet", .enterAnonymousClass unnamed] = .ok _ := rfl
  have hbound := Env.bound_since hwalk
  have hfalse := hbound.2.1 [.enterBoundClosure] (.enterClass "Vet")
    [.enterAnonymousClass unnamed] rfl rfl (by simp)
  have huse := hbound.2.2 plain (m := collar) rfl (by decide)
  exact ⟨_, hwalk, rfl, by decide, hfalse, hfalse ▸ huse⟩

/-- Right inside a class without a name the bound closure around it still counts. -/
theorem bound_in_anonymous :
    ∃ a, (Env.ofFile "dog.php" true).walk [.enterBoundClosure, .enterAnonymousClass unnamed]
        = .ok a ∧
      a.inBoundClosure = true ∧ a.className ≠ some collar.declaringClass ∧
      ((plain.canUse a collar).runFrom {}).1 = .ok true :=
  ⟨_, rfl, rfl, nofun, rfl⟩

end Fork

end PhpCheck
