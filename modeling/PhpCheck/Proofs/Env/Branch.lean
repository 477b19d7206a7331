/-
  PhpCheck/Proofs/Env/Branch.lean
  ===============================
  **Two branches** — what the two joins of a pair of branches have in common.

  A branch assigns, unsets and narrows, one step after the other (`Env.follow`).
  Of variables a join knows what both branches know, whichever of them it is
  asked of.  Of narrowed types it knows those of the branch that it is asked of:
  they stay even if the other branch has none of them, and those of the other
  branch are lost (`Fork.kept_by_one_branch`).  So the two joins infer the same
  type where the branches narrowed alike, and elsewhere they need not.
-/
import PhpCheck.Env.Enter
import PhpCheck.Proofs.Analysis.Frame
import PhpCheck.Proofs.LookUp.Query

namespace PhpCheck

open Analysis

/-! ### Steps of a branch -/

/-- A step that changes what is known and does not enter anything. -/
inductive FlowStep where
  /-- Assigns a value, of which perhaps nothing is known. -/
  | assign (name : String) (type : Option PhpType)
  | unset (name : String)
  | narrow (x : Expr) (className : String)

namespace FlowStep

def apply (e : Env) : FlowStep → Except Failure Env
  | assign name type => .ok (e.assign name (type.getD (.mixed true)))
  | unset name => e.unset? name
  | narrow x className => .ok (e.narrow x className)

/-- The type to which the step narrows an expression. -/
def narrowed? (y : Expr) : FlowStep → Option PhpType
  | narrow x className =>
    if x.variableName? = none ∧ y.text = x.text then some (.object className) else none
  | _ => none

end FlowStep

namespace Env

def follow (e : Env) (steps : List FlowStep) : Except Failure Env := steps.foldlM FlowStep.apply e

/-- The type to which the last of some steps narrows an expression. -/
def lastNarrowed? (steps : List FlowStep) (y : Expr) : Option PhpType :=
  steps.reverse.findSome? (·.narrowed? y)

variable {e a b : Env} {step : FlowStep} {steps : List FlowStep}

theorem eq_unset_of_ok {name : String} (h : e.unset? name = .ok a) : a = e.unset name := by
  unfold unset? at h
  split at h
  · cases h
    rfl
  · cases h

/-- A step changes the variables and the narrowed types, and ends the assignments under way. -/
theorem eq_step_of_apply (h : step.apply e = .ok a) :
    a = { e.step with bindings := a.bindings, narrowings := a.narrowings } := by
  cases step with
  | assign name type =>
    cases h
    rfl
  | unset name =>
    cases eq_unset_of_ok h
    rfl
  | narrow x className =>
    cases h
    unfold narrow
    split <;> rfl

theorem className_apply (h : step.apply e = .ok a) : a.className = e.className :=
  (congrArg Env.className (eq_step_of_apply h)).trans rfl

/-- A step narrows what it says, and leaves all other narrowed types. -/
theorem narrowing?_apply (h : step.apply e = .ok a) (y : Expr) :
    a.narrowing? y = (step.narrowed? y).or (e.narrowing? y) := by
  cases step with
  | assign name type =>
    cases h
    rfl
  | unset name =>
    rw [eq_unset_of_ok h]
    rfl
  | narrow x className =>
    cases h
    cases hx : x.variableName? with
    | none =>
      rw [narrowing?_narrow e hx, FlowStep.narrowed?]
      by_cases hy : y.text = x.text <;> simp [hx, hy]
    | some name =>
      simp only [narrow, FlowStep.narrowed?, hx]
      rfl

/-! ### Runs of a branch -/

theorem exists_of_follow_cons (h : e.follow (step :: steps) = .ok a) :
    ∃ middle, step.apply e = .ok middle ∧ middle.follow steps = .ok a := by
  have hbind : (step.apply e).bind (·.follow steps) = .ok a := h
  cases hs : step.apply e with
  | error cause =>
    rw [hs] at hbind
    cases hbind
  | ok middle =>
    rw [hs] at hbind
    exact ⟨middle, rfl, hbind⟩

theorem className_follow (h : e.follow steps = .ok a) : a.className = e.className := by
  induction steps generalizing e with
  | nil =>
    cases h
    rfl
  | cons step rest ih =>
    obtain ⟨middle, hstep, hrest⟩ := exists_of_follow_cons h
    exact (ih hrest).trans (className_apply hstep)

/-- After a branch an expression has the type to which the branch narrowed it last, or else the
    one that it had before. -/
theorem narrowing?_follow (h : e.follow steps = .ok a) (y : Expr) :
    a.narrowing? y = (lastNarrowed? steps y).or (e.narrowing? y) := by
  induction steps generalizing e with
  | nil =>
    cases h
    rfl
  | cons step rest ih =>
    obtain ⟨middle, hstep, hrest⟩ := exists_of_follow_cons h
    rw [ih hrest, narrowing?_apply hstep, lastNarrowed?, lastNarrowed?, List.reverse_cons,
      List.findSome?_append, List.findSome?_singleton, Option.or_assoc]

/-! ### Joins -/

theorem narrowing?_intersect (a b : Env) (y : Expr) :
    (a.intersect b).narrowing? y = a.narrowing? y := rfl

theorem bound?_intersect_comm (a b : Env) (name : String) :
    (a.intersect b).bound? name = (b.intersect a).bound? name := by
  rw [bound?_intersect, bound?_intersect]
  cases a.bound? name with
  | none => cases b.bound? name <;> rfl
  | some t =>
    cases b.bound? name with
    | none => rfl
    | some u => exact congrArg some (PhpType.join_comm t u)

/-- **What the two joins of two branches have in common.**  Each has the narrowed types of the
    branch that it is asked of, made there or before, and none that only the other branch made.
    They know the same of all variables.  So for an expression they infer the same type, or fail
    in the same way, if the branches narrow alike what inference looks at, and the extensions for
    calls say the same in both. -/
theorem intersect_of_follow {steps' : List FlowStep} (ha : e.follow steps = .ok a)
    (hb : e.follow steps' = .ok b) :
    (∀ y, (a.intersect b).narrowing? y = (lastNarrowed? steps y).or (e.narrowing? y) ∧
      (b.intersect a).narrowing? y = (lastNarrowed? steps' y).or (e.narrowing? y)) ∧
    (∀ name, (a.intersect b).bound? name = (b.intersect a).bound? name) ∧
    ∀ (t : SymbolTable) (x : Expr), t.AnswersAlike (b.intersect a) (a.intersect b) →
      (∀ y, t.Looks x y → a.narrowing? y = b.narrowing? y) →
      x.infer t (a.intersect b) = x.infer t (b.intersect a) := by
  refine ⟨?_, bound?_intersect_comm a b, ?_⟩
  · intro y
    rw [narrowing?_intersect, narrowing?_intersect]
    exact ⟨narrowing?_follow ha y, narrowing?_follow hb y⟩
  · intro t x hx hn
    have halike : (b.intersect a).Alike (a.intersect b) :=
      ⟨(className_follow ha).trans (className_follow hb).symm, bound?_intersect_comm a b⟩
    exact x.infer_congr halike hx hn

end Env

/-! ### A fork -/

namespace Fork

def inDog : Env := (Env.ofFile "dog.php" false).enterClass "Dog"

/-- A property of a variable. -/
def propertyOf (name property : String) : Expr :=
  .property {} (.variable {} (.literal name)) (.literal property)

def plain : SymbolTable := { source := kennel.source }

/-- The branch that meets another dog, which is narrowed in a property of `$this`. -/
def meeting : List FlowStep :=
  [.narrow (propertyOf "this" "mate") "Dog", .assign "met" (some (.of .boolean false))]

/-- The branch that meets a dog and an animal. -/
def meetingBoth : List FlowStep := .narrow (propertyOf "this" "guest") "Animal" :: meeting

/-- One branch narrows more than the other, yet both joins know the mate. -/
theorem mate_known_behind :
    ∃ a b, inDog.follow meetingBoth = .ok a ∧ inDog.follow meeting = .ok b ∧
      (a.intersect b).isNarrowed (propertyOf "this" "guest") = true ∧
      (b.intersect a).isNarrowed (propertyOf "this" "guest") = false ∧
      (propertyOf "this" "mate").infer plain (a.intersect b)
        = (propertyOf "this" "mate").infer plain (b.intersect a) ∧
      (((propertyOf "this" "mate").infer plain (b.intersect a)).runFrom {}).1
        = .ok (.object "Dog") := by
  have hboth : inDog.follow meetingBoth = .ok _ := rfl
  have hone : inDog.follow meeting = .ok _ := rfl
  have hjoins := (Env.intersect_of_follow hboth hone).2.2 plain (propertyOf "this" "mate")
    (SymbolTable.answersAlike_of_empty rfl _ _)
  refine ⟨_, _, hboth, hone, rfl, rfl, hjoins ?_, rfl⟩
  intro y hy
  -- Inference looks at the property and at `$this`.
  rcases hy.cases_head with rfl | ⟨z, hz, hy⟩
  · rfl
  · cases List.mem_singleton.mp hz
    rcases hy.cases_head with rfl | ⟨z, hz, hy⟩
    · rfl
    · cases hz

/-- What one branch narrowed stays narrowed behind both, if the join is asked of this branch. -/
theorem kept_by_one_branch :
    ∃ a b, inDog.follow meeting = .ok a ∧ inDog.follow [] = .ok b ∧
      (a.intersect b).isNarrowed (propertyOf "this" "mate") = true ∧
      (b.intersect a).isNarrowed (propertyOf "this" "mate") = false ∧
      (((propertyOf "this" "mate").infer plain (a.intersect b)).runFrom {}).1
        = .ok (.object "Dog") ∧
      (((propertyOf "this" "mate").infer plain (b.intersect a)).runFrom {}).1
        = .ok (.mixed true) :=
  ⟨_, _, rfl, rfl, rfl, rfl, rfl, rfl⟩

end Fork

end PhpCheck
