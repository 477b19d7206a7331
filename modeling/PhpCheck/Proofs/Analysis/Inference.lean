/-
  PhpCheck/Proofs/Analysis/Inference.lean
  =======================================
  **Inference can be repeated** — the type of an expression, and whether a member
  can be used, are found again at any later time.

  A call of a function is the one place where a look-up depends on another one:
  the function is looked up only if it is known.  So a call keeps a memory from
  knowing more functions than before (`functionInfo?_repeatable`), which the
  look-up by itself does not.

  The script of an extension for a call is made of such steps, and of inference of
  parts of the call.  So it can be repeated too, whatever it asks for
  (`ReturnAnswer.run_repeatable`).
-/
import PhpCheck.Inference.Access
import PhpCheck.Inference.Basic
import PhpCheck.Proofs.Analysis.Repeat

namespace PhpCheck

open Analysis

/-! ### The class around -/

/-- What `new` and constants of classes are depends on nothing in the environment but the class
    around. -/
theorem Env.instanceType?_congr {e e' : Env} (h : e'.className = e.className) :
    e'.instanceType? = e.instanceType? := by
  funext name
  unfold Env.instanceType?
  rw [h]

theorem SymbolTable.classConstantType?_congr {t : SymbolTable} {e e' : Env}
    (h : e'.className = e.className) (className name : String) :
    t.classConstantType? e' className name = t.classConstantType? e className name := by
  unfold SymbolTable.classConstantType?
  rw [h]

namespace SymbolTable

variable (t : SymbolTable) (e : Env)

/-! ### Functions -/

theorem runFrom_functionInfo? (name : String) (m : Memory) :
    (t.functionInfo? name).runFrom m =
      if t.knowsFunction m (functionKey name) then
        match m.functions.get? (functionKey name), t.source.function? (functionKey name) with
        | some f, _ => (.ok (some f), m)
        | none, some decl =>
          (.ok (some (decl.info (functionKey name))),
            m.addFunction (functionKey name) (decl.info (functionKey name)))
        | none, none => (.error (.functionNotFound name), m)
      else (.ok none, m) := by
  rw [functionInfo?, runFrom_bind, runFrom_hasFunction, knowsFunction]
  dsimp only
  split
  · rw [map_eq_pure_bind, runFrom_bind, runFrom_functionInfo]
    cases m.functions.get? (functionKey name) with
    | some f => rfl
    | none => cases t.source.function? (functionKey name) <;> rfl
  · rfl

theorem get?_functions_addFunction (m : Memory) (key name : String) (f : Signature) :
    (m.addFunction key f).functions.get? name
      = if name = key then some f else m.functions.get? name :=
  NameMap.get?_insert _ _ _ _

/-- A function that is known can be remembered without any other becoming known. -/
theorem later_addFunction {t : SymbolTable} {m : Memory} {key : String} {f : Signature}
    (hknown : t.knowsFunction m key = true) (hnone : m.functions.get? key = none) :
    Later t m (m.addFunction key f) where
  grows := ⟨rfl, id⟩
  functions := by
    intro k g hg
    rw [get?_functions_addFunction, if_neg ?_]
    · exact hg
    · rintro rfl
      rw [hnone] at hg
      cases hg
  known := by
    intro k
    simp only [knowsFunction, NameMap.contains_eq_isSome, get?_functions_addFunction] at hknown ⊢
    by_cases hk : k = key
    · subst hk
      simp [hknown]
    · simp [hk]

theorem hasFunction_orderly (name : String) : Orderly t (t.hasFunction name) where
  steady m hm := ⟨hm, .refl m⟩
  transparent hk := t.hasFunction_transparent name hk

theorem functionInfo_orderly (name : String) : Orderly t (t.functionInfo name) :=
  (t.functionInfo_transparent name).orderly

theorem functionInfo?_repeatable (name : String) : Repeatable t (t.functionInfo? name) where
  toOrderly := by
    refine (t.hasFunction_orderly name).bind fun known => ?_
    split
    · rw [map_eq_pure_bind]
      exact (t.functionInfo_orderly name).bind fun f => .pure (some f)
    · exact .pure none
  later := by
    intro m _
    rw [runFrom_functionInfo?]
    split
    · rename_i hknown
      split
      · exact .refl m
      · rename_i hnone _
        exact later_addFunction hknown hnone
      · exact .refl m
    · exact .refl m
  again := by
    intro m m' _ hm' hl
    rw [runFrom_functionInfo?] at hl ⊢
    rw [runFrom_functionInfo?]
    by_cases hknown : t.knowsFunction m (functionKey name) = true
    · rw [if_pos hknown] at hl ⊢
      cases hf : m.functions.get? (functionKey name) with
      | some f =>
        rw [hf] at hl
        rw [if_pos ((hl.known _).trans hknown), hl.functions hf]
      | none =>
        rw [hf] at hl
        cases hd : t.source.function? (functionKey name) with
        | none =>
          rw [hd] at hl
          -- A function without a declaration is never remembered.
          have hnone : m'.functions.get? (functionKey name) = none := by
            cases hget : m'.functions.get? (functionKey name) with
            | none => rfl
            | some f =>
              obtain ⟨decl, hdecl, -⟩ := hm'.faithful.functions hget
              exact absurd (hd.symm.trans hdecl) nofun
          rw [if_pos ((hl.known _).trans hknown), hnone]
        | some decl =>
          rw [hd] at hl
          -- The function was remembered, so it is remembered now.
          have hlater := (later_addFunction hknown hf (f := decl.info (functionKey name))).trans hl
          have hget : m'.functions.get? (functionKey name) = some (decl.info (functionKey name)) := by
            apply hl.functions
            rw [get?_functions_addFunction, if_pos rfl]
          rw [if_pos ((hlater.known _).trans hknown), hget]
    · rw [if_neg hknown] at hl ⊢
      rw [if_neg (by rwa [hl.known])]

theorem callType_repeatable (name : String) : Repeatable t (t.callType name) :=
  (t.functionInfo?_repeatable name).bind fun f => .pure ((f.map (·.result)).getD (.mixed true))

/-! ### Members -/

/-- What the declaration of a method says about a call of it. -/
def declaredType (t : SymbolTable) (receiver : PhpType) (name : String) : Analysis PhpType := do
  let some className := receiver.className? | return .mixed
  let some c ← t.classInfo? className | return .mixed
  let some m := c.method? name | return .mixed true
  return m.result.onReceiver receiver

theorem classConstantType?_repeatable (className name : String) :
    Repeatable t (t.classConstantType? e className name) := by
  unfold classConstantType?
  dsimp only
  split
  · refine (t.classInfo?_repeatable _).bind fun c => ?_
    cases c <;> exact .pure _
  · exact .pure none

theorem propertyType_repeatable (receiver : PhpType) (name : String) :
    Repeatable t (t.propertyType receiver name) := by
  unfold propertyType
  split
  · refine (t.classInfo?_repeatable _).bind fun c => ?_
    cases c <;> exact .pure _
  · exact .pure PhpType.mixed

theorem methodAnswer_repeatable (call : Expr) (receiver : PhpType) (name : String) :
    Repeatable t (t.methodAnswer e call receiver name) := by
  unfold methodAnswer
  split
  · rename_i className _
    refine (t.classInfo?_repeatable className).bind fun c => ?_
    cases c with
    | none => exact .pure _
    | some c =>
      dsimp only
      split
      · refine (t.returnExtensionsFor_repeatable className).bind fun xs => ?_
        split <;> exact .pure _
      · exact .pure _
  · exact .pure _

theorem declaredType_repeatable (receiver : PhpType) (name : String) :
    Repeatable t (t.declaredType receiver name) := by
  unfold declaredType
  split
  · refine (t.classInfo?_repeatable _).bind fun c => ?_
    cases c with
    | none => exact .pure PhpType.mixed
    | some c => cases hm : c.method? name <;> simp only [hm] <;> exact .pure _
  · exact .pure PhpType.mixed

theorem canUse_repeatable (m : Membership) : Repeatable t (t.canUse e m) := by
  unfold canUse
  split
  · exact .pure true
  · split
    · split
      · exact .pure true
      · exact .pure _
      · split
        · exact .pure true
        · exact (t.classInfo_repeatable _).bind fun c => .pure _
    · exact .pure m.isPublic

end SymbolTable

/-! ### Extensions for calls -/

/-- **Extensions can be asked again**, if the parts of the call can: by induction on the script,
    each of whose steps is remembered before it goes on. -/
theorem ReturnAnswer.run_repeatable {t : SymbolTable} {part : CallPart → Analysis PhpType}
    (h : ∀ asked, Repeatable t (part asked)) (answer : ReturnAnswer) :
    Repeatable t (answer.run t part) := by
  induction answer with
  | known type => exact .pure type
  | failed cause => exact .throw cause
  | hasClass className next ih => exact (t.hasClass_repeatable className).attempt.bind ih
  | consult className next ih => exact (t.classInfo_repeatable className).attempt.bind ih
  | consultFunction name next ih => exact (t.functionInfo?_repeatable name).attempt.bind ih
  | infer asked next ih => exact (h asked).attempt.bind ih

/-! ### Calls of methods without extensions -/

section Unextended

variable {t : SymbolTable} {e : Env}

theorem SymbolTable.methodAnswer_of_unextended (hx : t.returnExtensions = .empty) (call : Expr)
    (receiver : PhpType) (name : String) :
    t.methodAnswer e call receiver name = .known <$> t.declaredType receiver name := by
  have hnone : ∀ className, t.returnExtensionsFor className = pure [] := by
    intro className
    rw [returnExtensionsFor, hx]
    rfl
  unfold methodAnswer declaredType
  cases receiver.className? with
  | none => rfl
  | some className =>
    simp only [hnone, map_bind]
    congr 1
    funext c
    cases c with
    | none => rfl
    | some c => cases hm : c.method? name <;> simp [hm]

/-- If no extension says otherwise, the declaration of a method says what a call of it gives. -/
theorem Expr.infer_methodCall (hx : t.returnExtensions = .empty) (span : Span) (receiver : Expr)
    (name : String) (args : List Arg) :
    (Expr.methodCall span receiver (.literal name) args).infer t e =
      match e.narrowing? (.methodCall span receiver (.literal name) args) with
      | some type => pure type
      | none => receiver.infer t e >>= fun type => t.declaredType type name := by
  rw [Expr.infer]
  cases e.narrowing? (.methodCall span receiver (.literal name) args) with
  | some type => rfl
  | none =>
    simp only [SymbolTable.methodAnswer_of_unextended hx, bind_map_left, ReturnAnswer.run, bind_pure]

end Unextended

/-! ### Expressions -/

section Inference

variable (t : SymbolTable) (e : Env)

mutual

/-- **Inference can be repeated**, by induction on the expression. -/
theorem Expr.infer_repeatable (x : Expr) : Repeatable t (x.infer t e) := by
  cases x with
  | unary _ op operand =>
    cases op with
    | not => exact .pure _
    | minus | plus => exact operand.infer_repeatable
  | binary span op left right =>
    cases op with
    | arith op =>
      cases op with
      | divide | modulo | concat => exact .pure _
      | add | subtract | multiply | power =>
        exact left.infer_repeatable.bind fun a => right.infer_repeatable.bind fun b => .pure _
    | logical | compare | coalesce => exact .pure _
  | compoundAssign span op target value =>
    cases op with
    | divide => exact .pure _
    | add | subtract | multiply | modulo | power | concat =>
      exact target.infer_repeatable.bind fun a => value.infer_repeatable.bind fun b => .pure _
  | classConstant span className name =>
    cases className with
    | literal written => exact (t.classConstantType?_repeatable e written name).bind fun _ => .pure _
    | computed _ => exact .pure _
  | methodCall span receiver method args =>
    unfold Expr.infer
    split
    · exact .pure _
    · cases method with
      | computed _ => exact .pure _
      | literal name =>
        refine receiver.infer_repeatable.bind fun type => ?_
        refine (t.methodAnswer_repeatable e _ type name).bind fun answer => ?_
        refine answer.run_repeatable fun asked => ?_
        cases asked with
        | receiver => exact receiver.infer_repeatable
        | argument index => exact inferArg_repeatable args index
  | property span receiver name =>
    unfold Expr.infer
    split
    · exact .pure _
    · cases name with
      | computed _ => exact .pure _
      | literal written =>
        exact receiver.infer_repeatable.bind fun type => t.propertyType_repeatable type written
  | call span function args =>
    unfold Expr.infer
    split
    · exact .pure _
    · cases function with
      | computed _ => exact .pure _
      | literal name => exact t.callType_repeatable name
  | _ => exact .pure _

theorem inferArg_repeatable (args : List Arg) (index : Nat) :
    Repeatable t (inferArg t e args index) := by
  match args, index with
  | [], _ => exact .pure PhpType.mixed
  | ⟨value, _, _⟩ :: _, 0 => exact value.infer_repeatable
  | ⟨_, _, _⟩ :: rest, index + 1 => exact inferArg_repeatable rest index

end

end Inference

end PhpCheck
