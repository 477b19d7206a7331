/-
  PhpCheck/Proofs/Analysis/Frame.lean
  ===================================
  **What inference looks at** — the part of an environment on which the type of
  an expression rests.

  Inference looks at the class around, at the variables, and at the narrowed
  types of the expressions that it comes by (`SymbolTable.Looks`).  These are
  operands and receivers, and arguments only if an extension may ask for their
  types.  The rest is up to the extensions for calls, which get the environment
  as a whole.  Two environments that agree so far give the same type, or the same
  failure, and leave the same memory (`Expr.infer_congr`).
-/
import Mathlib.Logic.Relation
import PhpCheck.Proofs.Analysis.Inference

namespace PhpCheck

open Analysis

namespace SymbolTable

/-- The expressions whose types the type of an expression may rest on. -/
def looksAt (t : SymbolTable) : Expr → List Expr
  | .unary _ _ operand => [operand]
  | .binary _ _ left right => [left, right]
  | .compoundAssign _ _ target value => [target, value]
  | .property _ receiver _ => [receiver]
  | .methodCall _ receiver _ args =>
    receiver :: if t.returnExtensions.entries.isEmpty then [] else args.map (·.value)
  | _ => []

/-- Inference of the first expression may come by the second. -/
abbrev Looks (t : SymbolTable) : Expr → Expr → Prop :=
  Relation.ReflTransGen fun x y => y ∈ t.looksAt x

/-- What the extensions of the table say about calls is the same in both environments. -/
def AnswersAlike (t : SymbolTable) (e e' : Env) : Prop :=
  ∀ {className : String} {xs : List ReturnExtension},
    t.returnExtensions.get? className = some xs →
    ∀ x ∈ xs, ∀ (m : MethodInfo) (call : Expr), x.answer m call e' = x.answer m call e

theorem answersAlike_of_empty {t : SymbolTable} (h : t.returnExtensions = .empty) (e e' : Env) :
    t.AnswersAlike e e' := by
  intro className xs hxs
  rw [h] at hxs
  exact absurd hxs NameMap.get?_empty_ne

end SymbolTable

/-- The same class is around, and the same is known of the variables. -/
structure Env.Alike (e e' : Env) : Prop where
  className : e'.className = e.className
  bound : ∀ name, e'.bound? name = e.bound? name

section Congruence

variable {t : SymbolTable} {e e' : Env}

theorem Env.narrowedOr_congr {x : Expr} (h : e'.narrowing? x = e.narrowing? x)
    (otherwise : PhpType) : e'.narrowedOr x otherwise = e.narrowedOr x otherwise := by
  unfold Env.narrowedOr
  rw [h]

/-- Two calls, each in its environment, get one answer if each extension of the table answers both
    alike. -/
theorem SymbolTable.methodAnswer_congr {call call' : Expr}
    (h : ∀ {className : String} {xs : List ReturnExtension},
      t.returnExtensions.get? className = some xs →
      ∀ x ∈ xs, ∀ m : MethodInfo, x.answer m call' e' = x.answer m call e)
    (receiver : PhpType) (name : String) :
    t.methodAnswer e' call' receiver name = t.methodAnswer e call receiver name := by
  -- Whatever the ancestors of the class are, each of the extensions is one of the table.
  have hregistered : ∀ (names : List String) {x : ReturnExtension},
      (x ∈ names.flatMap fun k => (t.returnExtensions.get? k).getD []) →
      ∀ m : MethodInfo, x.answer m call' e' = x.answer m call e := by
    intro names x hx m
    obtain ⟨k, -, hmem⟩ := List.mem_flatMap.mp hx
    cases hxs : t.returnExtensions.get? k with
    | none => simp [hxs] at hmem
    | some xs =>
      rw [hxs, Option.getD_some] at hmem
      exact h hxs x hmem m
  unfold SymbolTable.methodAnswer SymbolTable.returnExtensionsFor
  cases receiver.className? with
  | none => rfl
  | some className =>
    dsimp only
    congr 1
    funext c
    cases c with
    | none => rfl
    | some c =>
      dsimp only
      cases c.method? name with
      | none => rfl
      | some m =>
        dsimp only
        split
        · rfl
        · simp only [bind_assoc, pure_bind]
          congr 1
          funext above
          generalize hfound : List.find? _ _ = found
          cases found with
          | none => rfl
          | some x =>
            dsimp only
            rw [hregistered _ (List.mem_of_find?_eq_some hfound) m]

theorem SymbolTable.AnswersAlike.methodAnswer (h : t.AnswersAlike e e') (call : Expr)
    (receiver : PhpType) (name : String) :
    t.methodAnswer e' call receiver name = t.methodAnswer e call receiver name :=
  methodAnswer_congr (fun hxs x hx m => h hxs x hx m call) receiver name

/-! ### Expressions -/

mutual

/-- **Inference looks at nothing else**, by induction on the expression. -/
theorem Expr.infer_congr (he : e.Alike e') (hx : t.AnswersAlike e e') (x : Expr)
    (hn : ∀ y, t.Looks x y → e'.narrowing? y = e.narrowing? y) :
    x.infer t e' = x.infer t e := by
  have hself : e'.narrowing? x = e.narrowing? x := hn x .refl
  have hbelow : ∀ y ∈ t.looksAt x, ∀ z, t.Looks y z → e'.narrowing? z = e.narrowing? z :=
    fun y hy z hz => hn z (.head hy hz)
  cases x with
  | unary span op operand =>
    have ih := operand.infer_congr he hx (hbelow operand (by simp [SymbolTable.looksAt]))
    cases op with
    | not => rfl
    | minus | plus => exact ih
  | binary span op left right =>
    have ihl := left.infer_congr he hx (hbelow left (by simp [SymbolTable.looksAt]))
    have ihr := right.infer_congr he hx (hbelow right (by simp [SymbolTable.looksAt]))
    simp only [Expr.infer, ihl, ihr, Env.narrowedOr_congr hself]
  | compoundAssign span op target value =>
    have iht := target.infer_congr he hx (hbelow target (by simp [SymbolTable.looksAt]))
    have ihv := value.infer_congr he hx (hbelow value (by simp [SymbolTable.looksAt]))
    simp only [Expr.infer, iht, ihv, Env.narrowedOr_congr hself]
  | int | float | string | array | cast => rfl
  | constant | assign | instanceOf | staticCall | staticProperty | closure =>
    simp only [Expr.infer, Env.narrowedOr_congr hself]
  | new span className args =>
    simp only [Expr.infer, Env.instanceType?_congr he.className, Env.narrowedOr_congr hself]
  | classConstant span className name =>
    cases className with
    | literal | computed =>
      simp only [Expr.infer, SymbolTable.classConstantType?_congr he.className,
        Env.narrowedOr_congr hself]
  | «variable» span name =>
    cases name with
    | literal | computed => simp only [Expr.infer, he.bound, Env.narrowedOr_congr hself]
  | property span receiver name =>
    have ih := receiver.infer_congr he hx (hbelow receiver (by simp [SymbolTable.looksAt]))
    simp only [Expr.infer, hself, ih]
  | call span function args => simp only [Expr.infer, hself]
  | methodCall span receiver method args =>
    have ih := receiver.infer_congr he hx (hbelow receiver (by simp [SymbolTable.looksAt]))
    by_cases hempty : t.returnExtensions.entries.isEmpty = true
    · -- Without extensions the arguments are not looked at.
      have hnone : t.returnExtensions = .empty := by
        cases hr : t.returnExtensions with
        | mk entries nodup =>
          rw [hr, List.isEmpty_iff] at hempty
          cases hempty
          rfl
      cases method with
      | computed value => simp only [Expr.infer, hself]
      | literal name => simp only [Expr.infer_methodCall hnone, hself, ih]
    · have hargs : ∀ index, inferArg t e' args index = inferArg t e args index := by
        intro index
        refine inferArg_congr he hx args (fun arg harg => ?_) index
        refine hbelow arg.value ?_
        rw [SymbolTable.looksAt, if_neg hempty]
        exact List.mem_cons_of_mem _ (List.mem_map_of_mem harg)
      simp only [Expr.infer, hself, ih, hargs, hx.methodAnswer]

theorem inferArg_congr (he : e.Alike e') (hx : t.AnswersAlike e e') (args : List Arg)
    (hn : ∀ arg ∈ args, ∀ y, t.Looks arg.value y → e'.narrowing? y = e.narrowing? y)
    (index : Nat) : inferArg t e' args index = inferArg t e args index := by
  match args, index with
  | [], _ => rfl
  | ⟨value, byRef, unpack⟩ :: _, 0 =>
    exact value.infer_congr he hx (hn ⟨value, byRef, unpack⟩ List.mem_cons_self)
  | ⟨_, _, _⟩ :: rest, index + 1 =>
    exact inferArg_congr he hx rest (fun arg harg => hn arg (List.mem_cons_of_mem _ harg)) index

end

end Congruence

end PhpCheck
