/-
  PhpCheck/Proofs/Analysis/Failures.lean
  ======================================
  **How inference fails** — with what stands in the way of a class that exists,
  and with nothing else.

  Inference asks whether a class exists before it looks the class up, and a
  function likewise.  Such a step is guarded (`Guarded`): it fails only with an
  obstacle of a class that exists or whose existence cannot be told.  Guarded
  steps compose, so inference is guarded by induction on the expression, and
  each such obstacle is the failure of some expression (`Expr.infer_failures`).

  The question whether a class exists does not look at the classes above it.
  Where a class that exists is declared below one that does not, inference fails
  because the upper one was not found; it does not if no hierarchy has such a
  gap.
-/
import PhpCheck.Proofs.Analysis.Order

namespace PhpCheck

open Analysis

/-- Whether a failure tells of a class that cannot be loaded or is above itself. -/
def Failure.isFault : Failure → Bool
  | .classLoading .. | .circularHierarchy _ => true
  | .undefinedVariable _ | .classNotFound _ | .functionNotFound _ => false

/-! ### What an obstacle tells -/

namespace SymbolSource

variable {s : SymbolSource} {name : String} {path : List String} {cause : Failure}

/-- A class does not exist, or it exists without a declaration. -/
def Missing (s : SymbolSource) (name : String) : Prop :=
  s.classExists name = .ok false ∨ s.classExists name = .ok true ∧ s.class? name = none

/-- What a failure tells of the classes that a class reaches. -/
def Explains (s : SymbolSource) (name : String) : Failure → Prop
  | .classLoading k reason => s.Reaches name k ∧ s.classExists k = .error reason
  | .circularHierarchy k => s.Reaches name k ∧ s.Circular k
  | .classNotFound k => s.Reaches name k ∧ s.Missing k
  | .undefinedVariable _ | .functionNotFound _ => False

theorem Explains.of_dependsOn {above : String} (hd : s.DependsOn name above)
    (h : s.Explains above cause) : s.Explains name cause := by
  cases cause with
  | classLoading k reason => exact ⟨.head hd h.1, h.2⟩
  | circularHierarchy k => exact ⟨.head hd h.1, h.2⟩
  | classNotFound k => exact ⟨.head hd h.1, h.2⟩
  | undefinedVariable | functionNotFound => exact h

/-- An obstacle tells the truth, if the path leads to the class. -/
theorem explains_of_obstacle (hpath : ∀ k ∈ path, Relation.TransGen s.DependsOn k name)
    (h : s.obstacle path name = some cause) : s.Explains name cause := by
  induction hn : s.unvisited path using Nat.strongRecOn generalizing path name with
  | _ n ih =>
    cases he : s.classExists name with
    | error reason =>
      rw [obstacle, he] at h
      cases h
      exact ⟨.refl, he⟩
    | ok known =>
      cases known with
      | false =>
        rw [obstacle, he] at h
        cases h
        exact ⟨.refl, .inl he⟩
      | true =>
        by_cases hp : name ∈ path
        · rw [obstacle_of_mem he hp] at h
          cases h
          exact ⟨.refl, hpath name hp⟩
        · cases hd : s.class? name with
          | none =>
            rw [obstacle_of_undeclared he hp hd] at h
            cases h
            exact ⟨.refl, .inr ⟨he, hd⟩⟩
          | some c =>
            rw [obstacle_eq_findSome? he hp hd] at h
            obtain ⟨above, hmem, ho⟩ := List.exists_of_findSome?_eq_some h
            have ha : s.DependsOn name above := ⟨c, hd, hmem⟩
            refine .of_dependsOn ha (ih _ (hn ▸ unvisited_cons_lt hp hd) ?_ ho rfl)
            intro k hk
            rcases List.mem_cons.mp hk with rfl | hk
            · exact .single ha
            · exact (hpath k hk).tail ha

/-- The failure is an obstacle of a class that exists, or whose existence cannot be told. -/
def Obstructs (s : SymbolSource) (cause : Failure) : Prop :=
  ∃ name, s.classExists name ≠ .ok false ∧ s.obstacle [] name = some cause

theorem Obstructs.explains (h : s.Obstructs cause) :
    ∃ name, s.classExists name ≠ .ok false ∧ s.Explains name cause := by
  obtain ⟨name, he, ho⟩ := h
  exact ⟨name, he, explains_of_obstacle (by simp) ho⟩

end SymbolSource

/-! ### Programs without gaps -/

namespace Program

variable {p : Program} {cause : Failure}

/-- Each class that a declared class depends on exists, or its existence cannot be told. -/
def Gapless (p : Program) : Prop :=
  ∀ {name above : String}, p.source.DependsOn name above → p.classExists above ≠ .ok false

theorem missing_iff {name : String} :
    p.source.Missing name ↔ p.classExists name = .ok false := by
  have hexists : p.source.classExists name = p.classExists name := rfl
  have hclass : p.source.class? name = p.classes.get? name := rfl
  rw [SymbolSource.Missing, hexists, hclass, classExists]
  cases p.faults.get? name with
  | some reason => simp
  | none => cases hc : p.classes.get? name <;> simp [NameMap.contains, hc]

theorem isFault_of_obstructs (hg : p.Gapless) (h : p.source.Obstructs cause) :
    cause.isFault = true := by
  obtain ⟨name, he, hexplains⟩ := h.explains
  cases cause with
  | classLoading | circularHierarchy => rfl
  | undefinedVariable | functionNotFound => exact hexplains.elim
  | classNotFound k =>
    obtain ⟨hr, hk⟩ := hexplains
    exfalso
    -- The class was found to exist, or a class below it depends on it.
    rcases hr.cases_tail with rfl | ⟨below, -, hd⟩
    · exact he (missing_iff.mp hk)
    · exact hg hd (missing_iff.mp hk)

end Program

/-! ### Guarded steps -/

/-- The step keeps memories faithful, and fails only with an obstacle of a class that exists or
    whose existence cannot be told. -/
structure Guarded {α : Type} (t : SymbolTable) (x : Analysis α) : Prop where
  steady : Steady t x
  obstructs : ∀ {m : Memory} {cause : Failure}, AtRest t m →
    (x.runFrom m).1 = .error cause → t.source.Obstructs cause

namespace Guarded

variable {α β : Type} {t : SymbolTable} {x : Analysis α}

theorem pure (a : α) : Guarded t (pure a : Analysis α) := ⟨.pure a, nofun⟩

theorem bind {f : α → Analysis β} (hx : Guarded t x) (hf : ∀ a, Guarded t (f a)) :
    Guarded t (x >>= f) where
  steady := hx.steady.bind fun a => (hf a).steady
  obstructs := by
    intro m cause hm h
    have hrest := hx.steady.atRest hm
    rcases hr : x.runFrom m with ⟨cause' | a, m'⟩
    · rw [runFrom_bind_error hr] at h
      cases h
      exact hx.obstructs hm (by rw [hr])
    · rw [hr] at hrest
      rw [runFrom_bind_ok hr] at h
      exact (hf a).obstructs hrest h

end Guarded

namespace SymbolTable

variable (t : SymbolTable) {m : Memory} {p : Program}

/-- A class that is looked up if it exists: the look-up fails with the obstacle, if the class
    exists or its existence cannot be told. -/
theorem classInfo?_error_iff {t : SymbolTable} (hm : AtRest t m) {name : String} {cause : Failure} :
    ((t.classInfo? name).runFrom m).1 = .error cause ↔
      t.source.classExists name ≠ .ok false ∧ t.source.obstacle [] name = some cause := by
  have hknown := t.hasClass_answers name hm.faithful
  have hrest := (t.hasClass_transparent name).steady.atRest hm
  rcases hr : (t.hasClass name).runFrom m with ⟨cause' | known, m'⟩
  · rw [hr] at hknown
    rw [classInfo?, runFrom_bind_error hr]
    cases he : t.source.classExists name with
    | ok known =>
      rw [he] at hknown
      cases hknown
    | error reason =>
      rw [he] at hknown
      cases hknown
      rw [SymbolSource.obstacle, he]
      simp
  · rw [hr] at hknown hrest
    rw [classInfo?, runFrom_bind_ok hr]
    cases he : t.source.classExists name with
    | error reason =>
      rw [he] at hknown
      cases hknown
    | ok known' =>
      rw [he] at hknown
      cases hknown
      cases known with
      | false => simp
      | true =>
        have hgives := classInfo_gives name hrest.faithful
        rw [hrest.idle] at hgives
        rw [if_pos rfl, map_eq_pure_bind, runFrom_bind]
        rcases hc : (t.classInfo name).runFrom m' with ⟨cause' | c, m''⟩
        · rw [hc] at hgives
          have hgives : t.source.obstacle [] name = some cause' := hgives
          simp [hgives]
        · rw [hc] at hgives
          simp [hgives.1]

theorem classInfo?_guarded (name : String) : Guarded t (t.classInfo? name) where
  steady := (t.classInfo?_transparent name).steady
  obstructs hm h := ⟨name, (classInfo?_error_iff hm).mp h⟩

theorem classConstantType?_guarded (e : Env) (className name : String) :
    Guarded t (t.classConstantType? e className name) := by
  unfold classConstantType?
  dsimp only
  split
  · refine (t.classInfo?_guarded _).bind fun c => ?_
    cases c <;> exact .pure _
  · exact .pure none

theorem propertyType_guarded (receiver : PhpType) (name : String) :
    Guarded t (t.propertyType receiver name) := by
  unfold propertyType
  split
  · refine (t.classInfo?_guarded _).bind fun c => ?_
    cases c <;> exact .pure _
  · exact .pure PhpType.mixed

theorem declaredType_guarded (receiver : PhpType) (name : String) :
    Guarded t (t.declaredType receiver name) := by
  unfold declaredType
  split
  · refine (t.classInfo?_guarded _).bind fun c => ?_
    cases c with
    | none => exact .pure PhpType.mixed
    | some c => cases hm : c.method? name <;> simp only [hm] <;> exact .pure _
  · exact .pure PhpType.mixed

/-- A function of a program is known just when it is declared, so to look it up does not fail. -/
theorem functionInfo?_guarded {t : SymbolTable} (hp : t.source = p.source) (name : String) :
    Guarded t (t.functionInfo? name) where
  steady := (t.functionInfo?_repeatable name).steady
  obstructs := by
    intro m cause hm h
    exfalso
    rw [runFrom_functionInfo?] at h
    split at h
    · rename_i hknown
      split at h
      · cases h
      · cases h
      · rename_i hf hd
        have hdeclared : t.source.functionExists (functionKey name)
            = (t.source.function? (functionKey name)).isSome := by
          rw [hp]
          rfl
        rw [knowsFunction, NameMap.contains_eq_isSome, hf, hdeclared, hd] at hknown
        cases hknown
    · cases h

end SymbolTable

/-! ### Expressions -/

variable {t : SymbolTable} {p : Program}

/-- Inference is guarded, by induction on the expression. -/
theorem Expr.infer_guarded (hp : t.source = p.source) (hx : t.returnExtensions = .empty)
    (e : Env) (x : Expr) : Guarded t (x.infer t e) := by
  cases x with
  | unary _ op operand =>
    cases op with
    | not => exact .pure _
    | minus | plus => exact operand.infer_guarded hp hx e
  | binary span op left right =>
    cases op with
    | arith op =>
      cases op with
      | divide | modulo | concat => exact .pure _
      | add | subtract | multiply | power =>
        refine (left.infer_guarded hp hx e).bind fun a => ?_
        exact (right.infer_guarded hp hx e).bind fun b => .pure _
    | logical | compare | coalesce => exact .pure _
  | compoundAssign span op target value =>
    cases op with
    | divide => exact .pure _
    | add | subtract | multiply | modulo | power | concat =>
      refine (target.infer_guarded hp hx e).bind fun a => ?_
      exact (value.infer_guarded hp hx e).bind fun b => .pure _
  | classConstant span className name =>
    cases className with
    | literal written => exact (t.classConstantType?_guarded e written name).bind fun _ => .pure _
    | computed _ => exact .pure _
  | methodCall span receiver method args =>
    cases method with
    | computed _ =>
      unfold Expr.infer
      split <;> exact .pure _
    | literal name =>
      rw [infer_methodCall hx]
      split
      · exact .pure _
      · exact (receiver.infer_guarded hp hx e).bind fun type => t.declaredType_guarded type name
  | property span receiver name =>
    unfold Expr.infer
    split
    · exact .pure _
    · cases name with
      | computed _ => exact .pure _
      | literal written =>
        exact (receiver.infer_guarded hp hx e).bind fun type => t.propertyType_guarded type written
  | call span function args =>
    unfold Expr.infer
    split
    · exact .pure _
    · cases function with
      | computed _ => exact .pure _
      | literal name =>
        exact (SymbolTable.functionInfo?_guarded hp name).bind fun f => .pure _
  | _ => exact .pure _

/-! ### How inference fails -/

namespace Failing

/-- An environment with an instance of a class. -/
def holding (className : String) : Env :=
  (Env.ofFile "a.php" false).assign "it" (.object className)

/-- A property of that instance. -/
def property : Expr := .property {} (.variable {} (.literal "it")) (.literal "name")

/-- Each obstacle of a class that exists is the failure of an expression. -/
theorem property_fails {m : Memory} (hm : AtRest t m) {name : String} {cause : Failure}
    (he : t.source.classExists name ≠ .ok false) (ho : t.source.obstacle [] name = some cause) :
    ((property.infer t (holding name)).runFrom m).1 = .error cause := by
  have hrun : property.infer t (holding name) = t.propertyType (.object name) "name" := rfl
  have hclass := (SymbolTable.classInfo?_error_iff hm).mpr ⟨he, ho⟩
  rw [hrun, SymbolTable.propertyType]
  rcases hr : (t.classInfo? name).runFrom m with ⟨cause' | c, m'⟩
  · rw [hr] at hclass
    cases hclass
    change ((t.classInfo? name >>= _).runFrom m).1 = _
    rw [runFrom_bind_error hr]
  · rw [hr] at hclass
    cases hclass

end Failing

/-- **How inference fails.**  Without extensions for calls, the failures of inference are the
    obstacles of the classes that exist or whose existence cannot be told, in whatever environment
    and after whatever else was asked.  Such a failure is that of a class which cannot be loaded,
    which is above itself, or which does not exist and stands above one that exists.  So if all
    classes that a declared class depends on exist, inference fails only by faults. -/
theorem Expr.infer_failures (hp : t.source = p.source) (hx : t.returnExtensions = .empty)
    (cause : Failure) :
    ((∃ m e x, t.Arises m ∧ ((Expr.infer t e x).runFrom m).1 = .error cause) ↔
        p.source.Obstructs cause) ∧
      (p.source.Obstructs cause →
        ∃ name, p.classExists name ≠ .ok false ∧ p.source.Explains name cause) ∧
      (p.Gapless → p.source.Obstructs cause → cause.isFault = true) := by
  refine ⟨?_, SymbolSource.Obstructs.explains, Program.isFault_of_obstructs⟩
  constructor
  · rintro ⟨m, e, x, hm, h⟩
    rw [← hp]
    exact (x.infer_guarded hp hx e).obstructs hm.atRest h
  · rintro ⟨name, he, ho⟩
    rw [← hp] at he ho
    exact ⟨{}, Failing.holding name, Failing.property, .start, Failing.property_fails .start he ho⟩

/-! ### A stray -/

namespace Failing

/-- A class that exists below one that does not. -/
def stray : Program := ({} : Program).addClass { name := "Stray", parent := some "Missing" }

theorem stray_failures :
    ((property.infer { source := stray.source } (holding "Stray")).runFrom {}).1
        = .error (.classNotFound "Missing") ∧
      ∃ name, stray.classExists name ≠ .ok false ∧
        stray.source.Explains name (.classNotFound "Missing") := by
  have hfails := Expr.infer_failures (t := { source := stray.source }) (p := stray) rfl rfl
    (.classNotFound "Missing")
  have hrun : ((property.infer { source := stray.source } (holding "Stray")).runFrom {}).1
      = .error (.classNotFound "Missing") := rfl
  exact ⟨hrun, hfails.2.1 (hfails.1.mp ⟨_, _, _, .start, hrun⟩)⟩

/-- Inference fails on a gap in a hierarchy. -/
theorem not_only_faults :
    ¬ ∀ (p : Program) (t : SymbolTable) (m : Memory) (e : Env) (x : Expr) (cause : Failure),
      t.source = p.source → t.returnExtensions = .empty → t.Arises m →
        ((x.infer t e).runFrom m).1 = .error cause → cause.isFault = true := by
  intro h
  have hfault := h stray { source := stray.source } {} (holding "Stray") property
    (.classNotFound "Missing") rfl rfl .start rfl
  cases hfault

end Failing

end PhpCheck
