/-
  PhpCheck/Proofs/Env/Reassignment.lean
  =====================================
  **Narrowed and assigned** — what becomes of a narrowed path when the variables it
  is made of change.

  A variable that is narrowed is bound to the class, so the next assignment puts
  an end to that.  The type of any other path is recorded under its source form,
  and an assignment does not look for the variables in there: the path keeps the
  class it was narrowed to through all steps of a branch that do not narrow it
  again, even if its root is assigned something else or is unset
  (`Expr.IsPath.infer_narrow_follow`).  Nothing else remains of the narrowing.
  Other paths have the types that they would have without it.
-/
import PhpCheck.Proofs.Env.Narrowing

namespace PhpCheck

/-! ### Branches from the same variables -/

theorem Env.bindings_narrow (e : Env) (x : Expr) (className : String) :
    (e.narrow x className).bindings
      = x.variableName?.elim e.bindings fun name => e.bindings.insert name (.object className) := by
  unfold narrow
  cases x.variableName? <;> rfl

/-- A step does to the variables what it would do if other things were narrowed. -/
theorem FlowStep.bindings_apply {e e' : Env} (h : e'.bindings = e.bindings) (step : FlowStep) :
    (step.apply e').map (·.bindings) = (step.apply e).map (·.bindings) := by
  cases step with
  | assign name type => simp only [apply, Env.assign, Except.map, h]
  | unset name =>
    show (e'.unset? name).map _ = (e.unset? name).map _
    unfold Env.unset? Env.hasVariable
    rw [h]
    split
    · simp only [Env.unset, Except.map, h]
    · rfl
  | narrow x className =>
    show Except.ok (e'.narrow x className).bindings = Except.ok (e.narrow x className).bindings
    rw [Env.bindings_narrow, Env.bindings_narrow, h]

namespace Env

variable {e e' b : Env} {steps : List FlowStep}

theorem bindings_follow (h : e'.bindings = e.bindings) (steps : List FlowStep) :
    (e'.follow steps).map (·.bindings) = (e.follow steps).map (·.bindings) := by
  induction steps generalizing e e' with
  | nil => exact congrArg Except.ok h
  | cons step rest ih =>
    have hstep := step.bindings_apply h
    rw [follow, follow, List.foldlM_cons, List.foldlM_cons]
    cases hb : step.apply e <;> cases ha : step.apply e' <;> rw [ha, hb] at hstep
    case error.error => exact congrArg Except.error (Except.error.inj hstep)
    case ok.ok => exact ih (Except.ok.inj hstep)
    all_goals cases hstep

theorem follow_error_of_bindings {cause : Failure} (h : e'.bindings = e.bindings)
    (hcause : e.follow steps = .error cause) : e'.follow steps = .error cause := by
  have hmap := bindings_follow h steps
  rw [hcause] at hmap
  cases ha : e'.follow steps with
  | error cause' =>
    rw [ha] at hmap
    exact congrArg Except.error (Except.error.inj hmap)
  | ok a =>
    rw [ha] at hmap
    cases hmap

theorem exists_follow_of_bindings (h : e'.bindings = e.bindings) (hb : e.follow steps = .ok b) :
    ∃ a, e'.follow steps = .ok a ∧ a.bindings = b.bindings := by
  have hmap := bindings_follow h steps
  rw [hb] at hmap
  cases ha : e'.follow steps with
  | error cause =>
    rw [ha] at hmap
    cases hmap
  | ok a =>
    rw [ha] at hmap
    exact ⟨a, rfl, Except.ok.inj hmap⟩

end Env

/-! ### A narrowed path in a branch -/

namespace Expr.IsPath

variable {t : SymbolTable} {e a b : Env} {p y : Expr} {className : String}
  {steps : List FlowStep}

/-- After a branch that does not narrow it again, a path has the class it was narrowed to. -/
theorem infer_of_follow (hp : p.IsPath) (hvariable : p.variableName? = none)
    (hkept : Env.lastNarrowed? steps p = none)
    (ha : (e.narrow p className).follow steps = .ok a) (t : SymbolTable) :
    p.infer t a = pure (.object className) := by
  refine hp.infer_of_narrowing? hvariable ?_
  rw [Env.narrowing?_follow ha, hkept, Option.none_or, e.narrowing?_narrow hvariable, if_pos rfl]

/-- After a branch, a path of which the narrowed one is no stem has its type as if nothing had been
    narrowed before. -/
theorem infer_follow_congr (ht : t.returnExtensions = .empty) (hp : p.IsPath)
    (hvariable : p.variableName? = none) (ha : (e.narrow p className).follow steps = .ok a)
    (hb : e.follow steps = .ok b) (hbindings : a.bindings = b.bindings) (hy : y.IsPath)
    (hstems : ∀ stem ∈ y.stems, stem.bare ≠ p.bare) : y.infer t a = y.infer t b := by
  refine hy.infer_congr ht (fun name _ => ?_) fun stem hstem => ?_
  · rw [Env.bound?, hbindings, Env.bound?]
  · rw [Env.narrowing?_follow ha, Env.narrowing?_follow hb,
      hp.narrowing?_narrow (hy.of_mem_stems hstem) hvariable (hstems stem hstem)]

/-- **What assignments leave of a narrowed path.**  From the environment where a path that is not a
    plain variable is narrowed, each branch goes as without that, and fails where it would.  After
    a branch that does not narrow the path again, whatever was assigned and unset in it, the path
    has the class it was narrowed to; all paths of which it is no stem have the types that they
    have after the branch by itself.  Of a plain variable that is narrowed, nothing outlasts the
    next assignment. -/
theorem infer_narrow_follow (hp : p.IsPath) (e : Env) (className : String) :
    (p.variableName? = none → ∀ steps : List FlowStep,
      (∀ cause, e.follow steps = .error cause →
        (e.narrow p className).follow steps = .error cause) ∧
      ∀ b, e.follow steps = .ok b →
        ∃ a, (e.narrow p className).follow steps = .ok a ∧
          (Env.lastNarrowed? steps p = none → ∀ t, p.infer t a = pure (.object className)) ∧
          ∀ t : SymbolTable, t.returnExtensions = .empty →
            ∀ y : Expr, y.IsPath → (∀ stem ∈ y.stems, stem.bare ≠ p.bare) →
              y.infer t a = y.infer t b) ∧
    ∀ name, p.variableName? = some name → ∀ (type : PhpType) (t : SymbolTable) (x : Expr),
      t.AnswersAlike (e.assign name type) ((e.narrow p className).assign name type) →
      x.infer t ((e.narrow p className).assign name type) = x.infer t (e.assign name type) := by
  constructor
  · intro hvariable steps
    have hbindings : (e.narrow p className).bindings = e.bindings := by
      rw [e.bindings_narrow, hvariable, Option.elim_none]
    constructor
    · exact fun cause hcause => Env.follow_error_of_bindings hbindings hcause
    · intro b hb
      obtain ⟨a, ha, hsame⟩ := Env.exists_follow_of_bindings hbindings hb
      exact ⟨a, ha, fun hkept t => hp.infer_of_follow hvariable hkept ha t,
        fun t ht y hy => infer_follow_congr ht hp hvariable ha hb hsame hy⟩
  · intro name hvariable type t x hanswers
    have hassign : e.narrow p className = e.assign name (.object className) := by
      rw [Env.narrow, hvariable]
    rw [hassign] at hanswers ⊢
    have halike : (e.assign name type).Alike
        ((e.assign name (.object className)).assign name type) := by
      refine ⟨rfl, fun key => ?_⟩
      rw [Env.bound?_assign, Env.bound?_assign, Env.bound?_assign]
      by_cases hkey : key = name <;> simp [hkey]
    exact x.infer_congr halike hanswers fun _ _ => rfl

end Expr.IsPath

/-! ### The kennel -/

namespace Kennel

def cloneOf (name : String) : Expr := .methodCall {} (animal name) (.literal "clone") []

theorem cloneOf_isPath {name : String} (h : SourceReader.IsName name) : (cloneOf name).IsPath :=
  .methodCall (.variable h) (by decide) nofun nofun

/-- The dog's clone is taken for a dog, and stays one when the dog has become an animal and even
    when there is no dog; of the snake's clone nothing changes. -/
theorem clone_outlasts_dog :
    (cloneOf "dog").IsPath ∧
      (∃ a, (yard.narrow (cloneOf "dog") "Dog").follow
          [.assign "dog" (some (.object "Animal")), .unset "dog"] = .ok a ∧
        a.hasVariable "dog" = false ∧
        (cloneOf "dog").infer cloneable a = pure (.object "Dog") ∧
        (((cloneOf "snake").infer cloneable a).runFrom {}).1
          = .error (.circularHierarchy "Snake")) ∧
      (yard.narrow (cloneOf "dog") "Dog").follow [.unset "dog", .unset "dog"]
        = .error (.undefinedVariable "dog") := by
  have hdog : (cloneOf "dog").IsPath := cloneOf_isPath (by decide)
  obtain ⟨hpath, -⟩ := hdog.infer_narrow_follow yard "Dog"
  have hgone : yard.follow [.assign "dog" (some (.object "Animal")), .unset "dog"] = .ok _ := rfl
  obtain ⟨a, ha, hself, hframe⟩ := (hpath rfl _).2 _ hgone
  have htexts : ∀ stem ∈ (cloneOf "snake").stems, stem.text ≠ (cloneOf "dog").text := by decide
  have hsnake := hframe cloneable rfl (cloneOf "snake") (cloneOf_isPath (by decide))
    fun stem hstem hbare => htexts stem hstem (by rw [← stem.text_bare, hbare, Expr.text_bare])
  refine ⟨hdog, ⟨a, ha, ?_, hself rfl cloneable, ?_⟩, (hpath rfl _).1 _ rfl⟩
  · cases ha
    rfl
  · rw [hsnake]
    rfl

/-- After the same assignment the clone is a dog if it was narrowed before, and an animal if not;
    and after the dog is unset it is a dog or nothing that is known. -/
theorem clone_of_another :
    (∀ x, yard.narrowing? x = none) ∧
      (((cloneOf "dog").infer cloneable
        ((yard.narrow (cloneOf "dog") "Dog").assign "dog" (.object "Animal"))).runFrom {}).1
          = .ok (.object "Dog") ∧
      (((cloneOf "dog").infer cloneable (yard.assign "dog" (.object "Animal"))).runFrom {}).1
        = .ok (.object "Animal") ∧
      (((cloneOf "dog").infer cloneable
        ((yard.narrow (cloneOf "dog") "Dog").unset "dog")).runFrom {}).1 = .ok (.object "Dog") ∧
      (((cloneOf "dog").infer cloneable (yard.unset "dog")).runFrom {}).1 = .ok .mixed :=
  ⟨fun _ => rfl, rfl, rfl, rfl, rfl⟩

end Kennel

end PhpCheck
