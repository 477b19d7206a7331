/-
  PhpCheck/Proofs/Rules/InstantiatedClass.lean
  ============================================
  **The class of a new object** — the rule on instantiations and inference each
  tell which class `new` names.

  The rule takes the backslashes off first and then knows `self` and `parent`
  (`instantiated?_cases`); inference knows `self` as it is written and takes
  every other name for that of a class.  So they agree on all names but two:
  `parent`, and `self` behind a backslash (`instantiated_inferred_iff`).  An
  object whose constructor was checked as that of the parent has no class that
  anything is known of (`Litter.parent_not_inferred`).
-/
import PhpCheck.Env.Enter
import PhpCheck.Proofs.LookUp.Success
import PhpCheck.Rules.MethodCalls
import PhpCheck.Rules.Instantiations

namespace PhpCheck

open Analysis

section Naming

variable {t : SymbolTable} {e : Env} {written className : String} {m n : Memory}

/-- What the rule takes for the class of an instantiation: the class around, its parent, or the
    class that is named. -/
theorem SymbolTable.instantiated?_cases
    (h : (t.instantiated? e written).runFrom m = (.ok (some className), n)) :
    (Text.withoutRoot written = "self" ∧ e.className = some className) ∨
    (Text.withoutRoot written = "parent" ∧ ∃ current c, e.className = some current ∧
      (t.classInfo? current).runFrom m = (.ok (some c), n) ∧ c.parent = some className) ∨
    (Text.withoutRoot written ≠ "self" ∧ Text.withoutRoot written ≠ "parent" ∧
      className = Text.withoutRoot written) := by
  unfold instantiated? at h
  split at h
  · cases h
  · rename_i hself
    cases hc : e.className with
    | none =>
      rw [hc] at h
      cases h
    | some current =>
      rw [hc] at h
      cases h
      exact .inl ⟨hself, rfl⟩
  · rename_i hparent
    cases hc : e.className with
    | none =>
      rw [hc] at h
      cases h
    | some current =>
      simp only [hc, runFrom_bind] at h
      rcases hlook : (t.classInfo? current).runFrom m with ⟨cause | _ | c, m'⟩
      · simp [hlook] at h
      · simp [hlook] at h
      · simp only [hlook, Option.bind_some, runFrom_pure, Prod.mk.injEq, Except.ok.injEq] at h
        obtain ⟨hparentClass, rfl⟩ := h
        exact .inr (.inl ⟨hparent, current, c, rfl, hlook, hparentClass⟩)
  · rename_i hself hparent
    cases h
    exact .inr (.inr ⟨hself, hparent, rfl⟩)

/-- What inference takes for it. -/
theorem Expr.infer_new (hwritten : written ≠ "static")
    (hself : written = "self" → e.className = some className) (span : Span) (args : List Arg) :
    (Expr.new span (.literal written) args).infer t e
      = pure (.object (if written = "self" then className else Text.withoutRoot written)) := by
  have hknown : e.instanceType? written
      = some (.object (if written = "self" then className else Text.withoutRoot written)) := by
    unfold Env.instanceType?
    rw [if_neg hwritten]
    by_cases hw : written = "self"
    · rw [if_pos hw, if_pos hw, hself hw, Option.map_some]
    · rw [if_neg hw, if_neg hw]
  rw [Expr.infer, Name.literal?, Option.bind_some, hknown, Option.getD_some]

/-- **Where the rule on instantiations and inference agree.**  If the rule takes the name for a
    class, it checks an instantiation of this class; inference takes `self` for the same class and
    every other name for the class so named.  So the object is inferred to be of the class whose
    constructor was checked unless the name is `self` behind a backslash, or `parent` with or
    without one; there it is not, but for classes that have these names. -/
theorem SymbolTable.instantiated_inferred_iff (hwritten : written ≠ "static")
    (h : (t.instantiated? e written).runFrom m = (.ok (some className), n))
    (settings : Settings) (span : Span) (args : List Arg) :
    (instantiationFindings settings t e (.expr (.new span (.literal written) args))).runFrom m
        = (Finding.ofComplaints <$>
            t.instantiationComplaints e settings className args).runFrom n ∧
    (Expr.new span (.literal written) args).infer t e
        = pure (.object (if written = "self" then className else Text.withoutRoot written)) ∧
    (((Expr.new span (.literal written) args).infer t e).runFrom n
        = (.ok (.object className), n) ↔
      (Text.withoutRoot written = "self" → written = "self" ∨ className = "self") ∧
      (Text.withoutRoot written = "parent" → className = "parent")) := by
  have hself : written = "self" → e.className = some className := by
    rintro rfl
    rcases t.instantiated?_cases h with ⟨-, hc⟩ | ⟨hparent, -⟩ | ⟨hne, -⟩
    · exact hc
    · exact absurd hparent (by decide)
    · exact absurd rfl hne
  have hinfer := Expr.infer_new (t := t) (e := e) hwritten hself span args
  refine ⟨?_, hinfer, ?_⟩
  · rw [instantiationFindings, runFrom_bind_ok h, map_eq_pure_bind]
  · have hclass : ((Expr.new span (.literal written) args).infer t e).runFrom n
        = (.ok (.object className), n) ↔
          (if written = "self" then className else Text.withoutRoot written) = className := by
      simp [hinfer, PhpType.object, PhpType.of]
    have hrootless : Text.withoutRoot "self" = "self" := by decide
    rw [hclass]
    by_cases hw : written = "self"
    · simp [hw, hrootless]
    · rw [if_neg hw]
      rcases t.instantiated?_cases h with ⟨hname, -⟩ | ⟨hname, -⟩ | ⟨hnotSelf, hnotParent, rfl⟩
      · simp [hname, hw, eq_comm]
      · simp [hname, eq_comm]
      · simp [hnotSelf, hnotParent]

end Naming

/-! ### A litter -/

namespace Litter

/-- Animals meet animals. -/
def litter : Program :=
  [({ name := "Animal",
      methods := [{ name := "meet", params := [{ name := "other", type := .object "Animal" }] }] }
      : ClassDecl),
    { name := "Dog", parent := some "Animal" }].foldl Program.addClass {}

def table : SymbolTable := { source := litter.source }

/-- In the class of dogs. -/
def dog : Env := (Env.ofFile "dog.php" true).enterClass "Dog"

/-- A new object without arguments. -/
def fresh (written : String) : Expr := .new {} (.literal written) []

/-- `self` and `\Animal` are for inference what the rule checks. -/
theorem self_and_animal_inferred :
    "self" ≠ "static" ∧ (table.instantiated? dog "self").runFrom {} = (.ok (some "Dog"), {}) ∧
      ((fresh "self").infer table dog).runFrom {} = (.ok (.object "Dog"), {}) ∧
    "\\Animal" ≠ "static" ∧
      (table.instantiated? dog "\\Animal").runFrom {} = (.ok (some "Animal"), {}) ∧
      ((fresh "\\Animal").infer table dog).runFrom {} = (.ok (.object "Animal"), {}) := by
  have hself : (table.instantiated? dog "self").runFrom {} = (.ok (some "Dog"), {}) := rfl
  have hanimal : (table.instantiated? dog "\\Animal").runFrom {} = (.ok (some "Animal"), {}) := rfl
  have hselfAgrees := (SymbolTable.instantiated_inferred_iff (by decide) hself {} {} []).2.2
  have hanimalAgrees := (SymbolTable.instantiated_inferred_iff (by decide) hanimal {} {} []).2.2
  exact ⟨by decide, hself, hselfAgrees.mpr (by decide), by decide, hanimal,
    hanimalAgrees.mpr (by decide)⟩

/-- For `new parent` in a dog the rule checks the constructor of animals and finds nothing, but the
    object is inferred to be of a class `parent`, so a dog may not meet it. -/
theorem parent_not_inferred :
    let meet : Expr := .methodCall (.point 3 1) (.variable {} (.literal "this")) (.literal "meet")
      [{ value := fresh "parent" }]
    "parent" ≠ "static" ∧
      ((table.instantiated? dog "parent").runFrom {}).1 = .ok (some "Animal") ∧
      ((table.hasClass "Animal").runFrom {}).1 = .ok true ∧
      ((instantiationFindings {} table dog (.expr (fresh "parent"))).runFrom {}).1 = .ok [] ∧
      ((fresh "parent").infer table dog).runFrom {} = (.ok (.object "parent"), {}) ∧
      PhpType.object "parent" ≠ .object "Animal" ∧
      ((methodCallFindings { argumentTypes := true } table dog (.expr meet)).runFrom {}).1 =
        .ok [⟨.argumentType (.method "Animal::meet()") 1 "other" (.object "Animal")
          (.object "parent"), none⟩] :=
  ⟨by decide, rfl, rfl, rfl, rfl, by decide, rfl⟩

end Litter

end PhpCheck
