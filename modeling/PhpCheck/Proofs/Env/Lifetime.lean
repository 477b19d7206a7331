/-
  PhpCheck/Proofs/Env/Lifetime.lean
  =================================
  **How long things are known** — assignments under way and narrowed types, said
  by the walk that led to an environment.

  That a variable is being assigned is forgotten by every move that does not
  itself begin an assignment.  A narrowed type outlasts much more: branches and
  their joins, loops, handlers, calls and bound closures.  It is forgotten where a
  body begins, be it that of a namespace, a class, a function or a closure.  So
  neither is ever known in a body other than the one where it came to be
  (`Env.known_since`).
-/
import PhpCheck.Proofs.Env.Walk

namespace PhpCheck

namespace Move

/-- The variable to which the move begins an assignment. -/
def assigned? : Move → Option String
  | enterAssignment name => some name
  | _ => none

/-- Whether the move enters a body: a namespace, a class, a function or a closure. -/
def entersBody : Move → Bool
  | enterNamespace _ | enterClass _ | enterFunction _ | enterAnonymousClass _
  | enterClosure .. => true
  | flow _ | enterBoundClosure | enterForeach .. | enterCatch .. | enterCall _ | enterAssignment _
  | intersect _ | add _ => false

/-- The move narrows an expression that is written like this one and is no variable. -/
def Narrows (y : Expr) (m : Move) : Prop :=
  ∃ x className, m = flow (.narrow x className) ∧ x.variableName? = none ∧ x.text = y.text

/-- The type to which the move narrows an expression. -/
def narrowed? (y : Expr) : Move → Option PhpType
  | flow step => step.narrowed? y
  | _ => none

theorem isSome_narrowed? {y : Expr} {m : Move} : (m.narrowed? y).isSome ↔ m.Narrows y := by
  constructor
  · intro h
    cases m with
    | flow step =>
      cases step with
      | narrow x className =>
        have hx : x.variableName? = none ∧ y.text = x.text := by
          simpa [narrowed?, FlowStep.narrowed?] using h
        exact ⟨x, className, rfl, hx.1, hx.2.symm⟩
      | assign | unset => simp [narrowed?, FlowStep.narrowed?] at h
    | _ => simp [narrowed?] at h
  · rintro ⟨x, className, rfl, hx, ht⟩
    simp [narrowed?, FlowStep.narrowed?, hx, ht]

end Move

namespace Env

variable {e a : Env} {move : Move}

/-! ### Single moves -/

theorem assigning_apply (h : move.apply e = .ok a) :
    a.assigning = (move.assigned?.map (· :: e.assigning)).getD [] := by
  cases move with
  | flow step => exact (congrArg Env.assigning (eq_step_of_apply h)).trans rfl
  | enterForeach value key =>
    cases h
    cases key <;> rfl
  | _ =>
    cases h
    rfl

/-- A move begins an assignment, or ends all that are under way. -/
theorem isAssigning_apply (h : move.apply e = .ok a) (name : String) :
    a.isAssigning name = true ↔
      move.assigned? = some name ∨ move.assigned?.isSome ∧ e.isAssigning name = true := by
  rw [isAssigning, assigning_apply h]
  cases move.assigned? with
  | none => simp
  | some other => simp [isAssigning, eq_comm (a := name)]

/-- A move narrows what it says, and where it enters a body nothing else is narrowed. -/
theorem narrowing?_apply_move (h : move.apply e = .ok a) (y : Expr) :
    a.narrowing? y
      = (move.narrowed? y).or (if move.entersBody then none else e.narrowing? y) := by
  cases move with
  | flow step => exact narrowing?_apply h y
  | enterForeach value key =>
    cases h
    cases key <;> rfl
  | _ =>
    cases h
    rfl

theorem isNarrowed_apply (h : move.apply e = .ok a) (y : Expr) :
    a.isNarrowed y = true ↔
      move.Narrows y ∨ move.entersBody = false ∧ e.isNarrowed y = true := by
  rw [isNarrowed, narrowing?_apply_move h, Option.isSome_or, Bool.or_eq_true,
    Move.isSome_narrowed?, isNarrowed]
  cases move.entersBody <;> simp

/-! ### Walks -/

/-- **Nothing is known for longer than it holds.**  After a walk from the beginning of a file, a
    variable is being assigned just if the walk ends in assignments alone, one of them to this
    variable.  An expression is narrowed just if it was narrowed, in a form that is written alike,
    after the last move into a body. -/
theorem known_since {file : String} {strict : Bool} {moves : List Move}
    (h : (ofFile file strict).walk moves = .ok a) :
    (∀ name, a.isAssigning name = true ↔
      Since (·.assigned? = some name) (·.assigned?.isSome) moves) ∧
    ∀ y, a.isNarrowed y = true ↔ Since (Move.Narrows y) (·.entersBody = false) moves := by
  constructor
  · intro name
    refine holds_iff_since (P := fun b => b.isAssigning name = true) ?_ ?_ h
    · simp [isAssigning, ofFile]
    · exact fun hm => isAssigning_apply hm name
  · intro y
    refine holds_iff_since (P := fun b => b.isNarrowed y = true) ?_ ?_ h
    · exact Bool.false_ne_true
    · exact fun hm => isNarrowed_apply hm y

end Env

namespace Fork

/-- In a method of the class, within a loop: the mate is looked at while it is assigned. -/
def visit : List Move :=
  [.enterClass "Dog", .flow (.narrow (propertyOf "this" "guest") "Animal"),
    .enterFunction { name := "visit", result := .null },
    .enterAssignment "old", .enterForeach "dog" none,
    .flow (.narrow (propertyOf "this" "mate") "Dog"),
    .enterAssignment "met", .enterAssignment "mate"]

/-- The mate is still narrowed, the guest was forgotten with the class body; and of the
    assignments only the last ones are under way. -/
theorem visit_knows :
    ∃ a, (Env.ofFile "dog.php" true).walk visit = .ok a ∧
      a.isNarrowed (propertyOf "this" "mate") = true ∧
      ¬ Since (Move.Narrows (propertyOf "this" "guest")) (·.entersBody = false) visit ∧
      a.isAssigning "met" = true ∧
      ¬ Since (·.assigned? = some "old") (·.assigned?.isSome) visit := by
  have hwalk : (Env.ofFile "dog.php" true).walk visit = .ok _ := rfl
  have hknown := Env.known_since hwalk
  refine ⟨_, hwalk, rfl, ?_, rfl, ?_⟩
  · rw [← hknown.2]
    decide
  · rw [← hknown.1]
    decide

end Fork

end PhpCheck
