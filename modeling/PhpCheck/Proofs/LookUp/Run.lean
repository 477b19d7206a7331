/-
  PhpCheck/Proofs/LookUp/Run.lean
  ===============================
  **Runs of steps** — what a step of an analysis gives and remembers, one
  equation for each way to make a step, and from these the equations of the
  look-ups that do not call themselves.

  A step is seen through `runFrom` only: later proofs take steps apart with
  these equations and never open the monad.
-/
import PhpCheck.Symbols.Table

namespace PhpCheck

/-! ### Steps -/

namespace Analysis

variable {α β : Type}

@[simp] theorem runFrom_pure (a : α) (m : Memory) :
    (pure a : Analysis α).runFrom m = (.ok a, m) := rfl

@[simp] theorem runFrom_throw (cause : Failure) (m : Memory) :
    (throw cause : Analysis α).runFrom m = (.error cause, m) := rfl

@[simp] theorem runFrom_get (m : Memory) : (get : Analysis Memory).runFrom m = (.ok m, m) := rfl

@[simp] theorem runFrom_modify (f : Memory → Memory) (m : Memory) :
    (modify f : Analysis PUnit).runFrom m = (.ok ⟨⟩, f m) := rfl

@[simp] theorem runFrom_attempt (x : Analysis α) (m : Memory) :
    x.attempt.runFrom m = (.ok (x.runFrom m).1, (x.runFrom m).2) := rfl

/-- A step goes on with what the step before gave and remembered, or fails as that one did. -/
theorem runFrom_bind (x : Analysis α) (f : α → Analysis β) (m : Memory) :
    (x >>= f).runFrom m = match x.runFrom m with
      | (.ok a, m') => (f a).runFrom m'
      | (.error cause, m') => (.error cause, m') := by
  simp only [runFrom, ExceptT.run_bind, StateT.run_bind]
  change (match x.run.run m with | _ => _) = _
  rcases x.run.run m with ⟨_ | _, m'⟩ <;> rfl

theorem runFrom_bind_ok {x : Analysis α} {m m' : Memory} {a : α} (h : x.runFrom m = (.ok a, m'))
    (f : α → Analysis β) : (x >>= f).runFrom m = (f a).runFrom m' := by
  rw [runFrom_bind, h]

theorem runFrom_bind_error {x : Analysis α} {m m' : Memory} {cause : Failure}
    (h : x.runFrom m = (.error cause, m')) (f : α → Analysis β) :
    (x >>= f).runFrom m = (.error cause, m') := by
  rw [runFrom_bind, h]

theorem runFrom_map (f : α → β) (x : Analysis α) (m : Memory) :
    (f <$> x).runFrom m = ((x.runFrom m).1.map f, (x.runFrom m).2) := by
  rw [map_eq_pure_bind, runFrom_bind]
  rcases x.runFrom m with ⟨_ | _, m'⟩ <;> rfl

/-- What the step gives, if it gives anything, is good. -/
def Yields (good : α → Prop) (x : Analysis α) : Prop := ∀ m a, (x.runFrom m).1 = .ok a → good a

namespace Yields

variable {good : α → Prop} {better : β → Prop}

theorem of_pure {a : α} (h : good a) : Yields good (pure a) := by
  rintro m _ ⟨⟩
  exact h

theorem bind {x : Analysis α} {f : α → Analysis β} (hx : Yields good x)
    (hf : ∀ a, good a → Yields better (f a)) : Yields better (x >>= f) := by
  intro m b hrun
  rcases hr : x.runFrom m with ⟨cause | a, m'⟩
  · rw [runFrom_bind_error hr] at hrun
    cases hrun
  · rw [runFrom_bind_ok hr] at hrun
    exact hf a (hx m a (by rw [hr])) m' b hrun

/-- Of a step before, nothing need be known. -/
theorem after (x : Analysis α) {f : α → Analysis β} (hf : ∀ a, Yields better (f a)) :
    Yields better (x >>= f) :=
  bind (fun _ _ _ => trivial) fun a (_ : True) => hf a

end Yields

end Analysis

/-! ### Parts of a memory -/

namespace Memory

variable (m : Memory) (name : String) (c : ClassInfo)

@[simp] theorem building_mark : (m.mark name).building = name :: m.building := rfl
@[simp] theorem building_unmark : (m.unmark name).building = m.building.erase name := rfl
@[simp] theorem building_addClass : (m.addClass name c).building = m.building := rfl

theorem get?_classes_addClass (key : String) :
    (m.addClass name c).classes.get? key = if key = name then some c else m.classes.get? key :=
  NameMap.get?_insert _ _ _ _

end Memory

/-! ### Look-ups -/

namespace SymbolTable

open Analysis

variable (t : SymbolTable) (look : String → Analysis ClassInfo) (name : String) (m : Memory)

theorem runFrom_hasClass :
    (t.hasClass name).runFrom m =
      (if m.classes.contains name then .ok true
        else (t.source.classExists name).mapError (.classLoading name), m) := by
  rw [hasClass, runFrom_bind_ok (runFrom_get m)]
  by_cases hc : m.classes.contains name = true
  · simp [hc]
  · rw [if_neg hc, if_neg hc]
    cases t.source.classExists name <;> rfl

/-- What a look-up does is settled by what is remembered, by whether the class exists, and by
    what is being put together. -/
theorem runFrom_lookUpVia :
    (t.lookUpVia look name).runFrom m =
      match m.classes.get? name, t.source.classExists name with
      | some c, _ => (.ok c, m)
      | none, .error reason => (.error (.classLoading name reason), m)
      | none, .ok false => (.error (.classNotFound name), m)
      | none, .ok true =>
        if name ∈ m.building then (.error (.circularHierarchy name), m)
        else (t.buildMarked look name).runFrom m := by
  rw [lookUpVia, runFrom_bind_ok (runFrom_get m)]
  cases hc : m.classes.get? name with
  | some c => simp
  | none =>
    have hrun : (t.hasClass name).runFrom m
        = ((t.source.classExists name).mapError (.classLoading name), m) := by
      rw [runFrom_hasClass, NameMap.contains_eq_isSome, hc]
      rfl
    cases he : t.source.classExists name with
    | error reason =>
      have hrun : (t.hasClass name).runFrom m = (.error (.classLoading name reason), m) := by
        rw [hrun, he]
        rfl
      simp [runFrom_bind, hrun]
    | ok known =>
      have hrun : (t.hasClass name).runFrom m = (.ok known, m) := by
        rw [hrun, he]
        rfl
      cases known with
      | false => simp [runFrom_bind, hrun]
      | true => by_cases hb : name ∈ m.building <;> simp [runFrom_bind, hrun, hb]

theorem runFrom_hasFunction :
    (t.hasFunction name).runFrom m =
      (.ok (m.functions.contains (functionKey name)
        || t.source.functionExists (functionKey name)), m) := rfl

theorem runFrom_functionInfo :
    (t.functionInfo name).runFrom m =
      match m.functions.get? (functionKey name), t.source.function? (functionKey name) with
      | some f, _ => (.ok f, m)
      | none, some decl =>
        (.ok (decl.info (functionKey name)),
          m.addFunction (functionKey name) (decl.info (functionKey name)))
      | none, none => (.error (.functionNotFound name), m) := by
  rw [functionInfo, runFrom_bind_ok (runFrom_get m)]
  cases hf : m.functions.get? (functionKey name) with
  | some f => rfl
  | none =>
    cases t.source.function? (functionKey name) <;> rfl

theorem runFrom_buildMarked :
    (t.buildMarked look name).runFrom m =
      match (t.build look name).runFrom (m.mark name) with
      | (.ok c, m') => (.ok c, (m'.unmark name).addClass name c)
      | (.error cause, m') => (.error cause, m'.unmark name) := by
  rw [buildMarked, runFrom_bind_ok (runFrom_modify _ m), runFrom_bind_ok (runFrom_attempt _ _),
    runFrom_bind_ok (runFrom_modify _ _)]
  rcases (t.build look name).runFrom (m.mark name) with ⟨_ | c, m'⟩ <;> rfl

end SymbolTable

end PhpCheck
