/-
  PhpCheck/Proofs/Analysis/Widening.lean
  ======================================
  **Widening** — where less is known of the variables, less is inferred.

  A type widens to the types of its kind and to `mixed`; whether null is allowed
  does not matter here.  An environment widens to one at the same point of the
  code in which variables have wider types (`Env.WidensTo`), such as the one
  where two branches meet.  `Expr.infer_widens` compares inference in both: what
  succeeds in the first succeeds in the second, with a wider type.

  Arithmetic is the exception.  Its operands come before a narrowed type, so with
  less known of the operands the narrowed type comes to light, and it need not be
  wider.  Hence arithmetic must not be narrowed.

  What extensions add to a class may depend on what was looked up before, so the
  runs are compared one after the other (`Carries`): the second one meets the
  same classes as the first because they are remembered.
-/
import PhpCheck.Proofs.Analysis.Inference
import PhpCheck.Proofs.Code.Within

namespace PhpCheck

open Analysis

/-! ### Types -/

namespace PhpType

variable {a a' b b' : PhpType}

/-- The second type is of the kind of the first one, or of no kind that is known. -/
def WidensTo (a b : PhpType) : Prop := b.kind = a.kind ∨ b.kind = .mixed

theorem WidensTo.refl (a : PhpType) : a.WidensTo a := .inl rfl

theorem WidensTo.mixed (a : PhpType) (nullable : Bool := false) : a.WidensTo (.mixed nullable) :=
  .inr rfl

theorem widensTo_join (a b : PhpType) : a.WidensTo (a.join b) := by
  unfold WidensTo join
  rw [kind_of]
  split
  · exact .inl rfl
  · exact .inr rfl

/-- Arithmetic on wider operands gives the same, or nothing. -/
theorem arithmetic?_of_widensTo (ha : a.WidensTo a') (hb : b.WidensTo b') :
    a'.arithmetic? b' = a.arithmetic? b ∨ a'.arithmetic? b' = none := by
  have hmixed : Kind.mixed.asNumber = .mixed := rfl
  unfold arithmetic? Kind.arithmetic?
  rcases ha with ha | ha <;> rcases hb with hb | hb <;> rw [ha, hb]
  · exact .inl rfl
  · by_cases hf : a.kind.asNumber = .float <;> simp [hf, hmixed]
  · by_cases hf : b.kind.asNumber = .float <;> simp [hf, hmixed]
  · simp [hmixed]

/-- The same operation on a wider receiver has a wider result. -/
theorem widensTo_onReceiver (declared : PhpType) (h : a'.kind = a.kind) :
    (declared.onReceiver a).WidensTo (declared.onReceiver a') := by
  unfold onReceiver
  split
  · split
    · exact .inl h
    · exact .inl h
  · exact .refl declared

end PhpType

/-! ### Environments -/

/-- The second environment is that of the same point of the code, with less known of the
    variables. -/
structure Env.WidensTo (e e' : Env) : Prop where
  className : e'.className = e.className
  functionName : e'.functionName = e.functionName
  strict : e'.strict = e.strict
  inBoundClosure : e'.inBoundClosure = e.inBoundClosure
  anonymousClass : e'.anonymousClass = e.anonymousClass
  narrowings : e'.narrowings = e.narrowings
  bound : ∀ name, ((e.bound? name).getD (.mixed true)).WidensTo
    ((e'.bound? name).getD (.mixed true))

namespace Env

variable {e e' : Env}

theorem widensTo_intersect (e other : Env) : e.WidensTo (e.intersect other) where
  className := rfl
  functionName := rfl
  strict := rfl
  inBoundClosure := rfl
  anonymousClass := rfl
  narrowings := rfl
  bound := by
    intro name
    rw [bound?_intersect]
    cases e.bound? name with
    | none => exact .refl _
    | some a =>
      cases other.bound? name with
      | none => exact .mixed a true
      | some b => exact PhpType.widensTo_join a b

theorem WidensTo.narrowing? (h : e.WidensTo e') (x : Expr) : e'.narrowing? x = e.narrowing? x := by
  unfold Env.narrowing?
  rw [h.narrowings]

/-- A narrowed type is the same in both, so only what stands in for it matters. -/
theorem WidensTo.narrowedOr (h : e.WidensTo e') (x : Expr) {a a' : PhpType} (ha : a.WidensTo a') :
    (e.narrowedOr x a).WidensTo (e'.narrowedOr x a') := by
  unfold Env.narrowedOr
  rw [h.narrowing?]
  cases e.narrowing? x with
  | some type => exact .refl type
  | none => exact ha

theorem WidensTo.knownOr (h : e.WidensTo e') (known : Option PhpType) (x : Expr) :
    (known.getD (e.narrowedOr x .mixed)).WidensTo (known.getD (e'.narrowedOr x .mixed)) := by
  cases known with
  | some type => exact .refl type
  | none => exact h.narrowedOr x (.refl _)

/-- What arithmetic gives in both, if it is not narrowed. -/
theorem WidensTo.arithmetic (h : e.WidensTo e') {x : Expr} (hx : e.isNarrowed x = false)
    {a a' b b' : PhpType} (ha : a.WidensTo a') (hb : b.WidensTo b') :
    ((a.arithmetic? b).getD (e.narrowedOr x .mixed)).WidensTo
      ((a'.arithmetic? b').getD (e'.narrowedOr x .mixed)) := by
  have hnone : e.narrowing? x = none := by simpa [Env.isNarrowed] using hx
  rcases PhpType.arithmetic?_of_widensTo ha hb with hsame | hnothing
  · rw [hsame]
    exact h.knownOr _ x
  · rw [hnothing, Env.narrowedOr, Env.narrowedOr, h.narrowing?, hnone]
    exact .mixed _

end Env

/-! ### Comparing two runs -/

/-- If the first step succeeds, then at any later time the second one succeeds with something
    related. -/
structure Carries {α β : Type} (t : SymbolTable) (R : α → β → Prop) (x : Analysis α)
    (y : Analysis β) : Prop where
  left : Repeatable t x
  right : Repeatable t y
  succeeds : ∀ {m m' : Memory} {a : α}, AtRest t m → AtRest t m' → Later t (x.runFrom m).2 m' →
    (x.runFrom m).1 = .ok a → ∃ b, (y.runFrom m').1 = .ok b ∧ R a b

namespace Carries

variable {α β γ δ : Type} {t : SymbolTable} {x : Analysis α} {y : Analysis β} {R : α → β → Prop}

theorem pure {a : α} {b : β} (h : R a b) : Carries t R (pure a) (pure b) where
  left := .pure a
  right := .pure b
  succeeds := by
    intro m m' a' _ _ _ ha
    cases ha
    exact ⟨b, rfl, h⟩

theorem mono {S : α → β → Prop} (hx : Carries t R x y) (h : ∀ a b, R a b → S a b) :
    Carries t S x y where
  left := hx.left
  right := hx.right
  succeeds := by
    intro m m' a hm hm' hl ha
    obtain ⟨b, hb, hr⟩ := hx.succeeds hm hm' hl ha
    exact ⟨b, hb, h a b hr⟩

/-- A step carries over to itself. -/
theorem same (hx : Repeatable t x) : Carries t Eq x x where
  left := hx
  right := hx
  succeeds hm hm' hl ha := ⟨_, (hx.again hm hm' hl).trans ha, rfl⟩

theorem self {R : α → α → Prop} (hx : Repeatable t x) (h : ∀ a, R a a) : Carries t R x x :=
  (same hx).mono fun a _ hab => hab ▸ h a

/-- A step that does nothing succeeds. -/
theorem skip {b : β} (hx : Repeatable t x) (h : ∀ a, R a b) :
    Carries t R x (Pure.pure b : Analysis β) where
  left := hx
  right := .pure b
  succeeds := fun _ _ _ _ => ⟨b, rfl, h _⟩

theorem bind {S : γ → δ → Prop} {f : α → Analysis γ} {g : β → Analysis δ}
    (hx : Carries t R x y) (hf : ∀ a, Repeatable t (f a)) (hg : ∀ b, Repeatable t (g b))
    (h : ∀ a b, R a b → Carries t S (f a) (g b)) : Carries t S (x >>= f) (y >>= g) where
  left := hx.left.bind hf
  right := hx.right.bind hg
  succeeds := by
    intro m m' c hm hm' hl hc
    have hrest := hx.left.atRest hm
    rcases hr : x.runFrom m with ⟨cause | a, n⟩
    · rw [runFrom_bind_error hr] at hc
      cases hc
    · rw [hr] at hrest
      rw [runFrom_bind_ok hr] at hc hl
      have hlater : Later t n m' := ((hf a).later hrest).trans hl
      obtain ⟨b, hb, hab⟩ := hx.succeeds hm hm' (by rw [hr]; exact hlater) (by rw [hr])
      have hlater' := hx.right.later hm'
      have hrest' := hx.right.atRest hm'
      rcases hr' : y.runFrom m' with ⟨cause | b', n'⟩
      · rw [hr'] at hb
        cases hb
      · rw [hr'] at hb hlater' hrest'
        cases hb
        rw [runFrom_bind_ok hr']
        exact (h a b hab).succeeds hrest hrest' (hl.trans hlater') hc

/-- After the same step. -/
theorem bind_same {S : γ → δ → Prop} {f : α → Analysis γ} {g : α → Analysis δ}
    (hx : Repeatable t x) (h : ∀ a, Carries t S (f a) (g a)) : Carries t S (x >>= f) (x >>= g) := by
  refine (same hx).bind (fun a => (h a).left) (fun a => (h a).right) ?_
  rintro a _ rfl
  exact h a

end Carries

/-! ### Inference -/

/-- Whether the type of an expression is first looked for in those of its operands. -/
def Expr.isArithmetic : Expr → Bool
  | .binary _ (.arith op) _ _ =>
    match op with
    | .add | .subtract | .multiply | .power => true
    | .divide | .modulo | .concat => false
  | .compoundAssign _ op _ _ => decide (op ≠ .divide)
  | _ => false

/-- No arithmetic is narrowed at this expression. -/
def Env.LeavesArithmetic (e : Env) (x : Expr) : Prop := x.isArithmetic = true → e.isNarrowed x = false

section Inference

variable {t : SymbolTable} {e e' : Env}

theorem PhpType.className?_congr {a a' : PhpType} (h : a'.kind = a.kind) :
    a'.className? = a.className? := by
  unfold className?
  rw [h]

theorem SymbolTable.declaredType_widens {a a' : PhpType} (h : a.WidensTo a') (name : String) :
    Carries t PhpType.WidensTo (t.declaredType a name) (t.declaredType a' name) := by
  rcases h with h | h
  · unfold declaredType
    rw [PhpType.className?_congr h]
    split
    · refine .bind_same (t.classInfo?_repeatable _) fun c => ?_
      cases c with
      | none => exact .pure (.refl PhpType.mixed)
      | some c =>
        cases hm : c.method? name with
        | none => simpa only [hm] using Carries.pure (.refl _)
        | some m => simpa only [hm] using Carries.pure (PhpType.widensTo_onReceiver m.result h)
    · exact .pure (.refl PhpType.mixed)
  · have hnone : t.declaredType a' name = pure .mixed := by
      simp [declaredType, PhpType.className?, h]
    rw [hnone]
    exact .skip (t.declaredType_repeatable a name) fun type => .mixed type

theorem SymbolTable.propertyType_widens {a a' : PhpType} (h : a.WidensTo a') (name : String) :
    Carries t PhpType.WidensTo (t.propertyType a name) (t.propertyType a' name) := by
  rcases h with h | h
  · have hsame : t.propertyType a' name = t.propertyType a name := by
      rw [propertyType, propertyType, PhpType.className?_congr h]
    rw [hsame]
    exact .self (t.propertyType_repeatable a name) .refl
  · have hnone : t.propertyType a' name = pure .mixed := by
      simp [propertyType, PhpType.className?, h]
    rw [hnone]
    exact .skip (t.propertyType_repeatable a name) fun type => .mixed type

/-- **Inference widens**, by induction on the expression. -/
theorem Expr.infer_widens (hx : t.returnExtensions = .empty) (he : e.WidensTo e') (x : Expr)
    (hn : x.Everywhere e.LeavesArithmetic) :
    Carries t PhpType.WidensTo (x.infer t e) (x.infer t e') := by
  cases x with
  | unary _ op operand =>
    have ih := operand.infer_widens hx he (hn.child (by simp [children]))
    cases op with
    | not => exact .pure (.refl _)
    | minus | plus => exact ih
  | binary span op left right =>
    have ihl := left.infer_widens hx he (hn.child (by simp [children]))
    have ihr := right.infer_widens hx he (hn.child (by simp [children]))
    cases op with
    | arith op =>
      cases op with
      | divide | modulo => exact .pure (.refl _)
      | concat => exact .pure (he.narrowedOr _ (.refl _))
      | add | subtract | multiply | power =>
        refine ihl.bind (fun a => ?_) (fun a => ?_) fun a a' ha => ?_
        · exact ihr.left.bind fun b => .pure _
        · exact ihr.right.bind fun b => .pure _
        · refine ihr.bind (fun _ => .pure _) (fun _ => .pure _) fun b b' hb => ?_
          exact .pure (he.arithmetic (hn.self rfl) ha hb)
    | logical => exact .pure (.refl _)
    | compare | coalesce => exact .pure (he.narrowedOr _ (.refl _))
  | compoundAssign span op target value =>
    have iht := target.infer_widens hx he (hn.child (by simp [children]))
    have ihv := value.infer_widens hx he (hn.child (by simp [children]))
    cases op with
    | divide => exact .pure (.refl _)
    | add | subtract | multiply | modulo | power | concat =>
      refine iht.bind (fun a => ?_) (fun a => ?_) fun a a' ha => ?_
      · exact ihv.left.bind fun b => .pure _
      · exact ihv.right.bind fun b => .pure _
      · refine ihv.bind (fun _ => .pure _) (fun _ => .pure _) fun b b' hb => ?_
        exact .pure (he.arithmetic (hn.self rfl) ha hb)
  | int | float | string | array | cast => exact .pure (.refl _)
  | constant span name =>
    exact .pure (he.knownOr _ _)
  | new span className args =>
    unfold Expr.infer
    rw [Env.instanceType?_congr he.className]
    exact .pure (he.knownOr _ _)
  | classConstant span className name =>
    cases className with
    | literal written =>
      unfold Expr.infer
      dsimp only
      rw [SymbolTable.classConstantType?_congr he.className]
      refine .bind_same (t.classConstantType?_repeatable e written name) fun known => ?_
      exact .pure (he.knownOr _ _)
    | computed _ => exact .pure (he.knownOr _ _)
  | «variable» span name =>
    refine .pure (he.narrowedOr _ ?_)
    cases name with
    | literal written => exact he.bound written
    | computed _ => exact .refl _
  | methodCall span receiver method args =>
    have ih := receiver.infer_widens hx he (hn.child (by simp [children]))
    cases method with
    | computed value =>
      unfold Expr.infer
      rw [he.narrowing?]
      split <;> exact .pure (.refl _)
    | literal name =>
      rw [infer_methodCall hx, infer_methodCall hx, he.narrowing?]
      split
      · exact .pure (.refl _)
      · refine ih.bind (fun a => ?_) (fun a => ?_) fun a a' ha => ?_
        · exact t.declaredType_repeatable a name
        · exact t.declaredType_repeatable a name
        · exact SymbolTable.declaredType_widens ha name
  | property span receiver name =>
    have ih := receiver.infer_widens hx he (hn.child (by simp [children]))
    unfold Expr.infer
    rw [he.narrowing?]
    split
    · exact .pure (.refl _)
    · cases name with
      | computed _ => exact .pure (.refl _)
      | literal written =>
        refine ih.bind (fun a => ?_) (fun a => ?_) fun a a' ha => ?_
        · exact t.propertyType_repeatable a written
        · exact t.propertyType_repeatable a written
        · exact SymbolTable.propertyType_widens ha written
  | call span function args =>
    unfold Expr.infer
    rw [he.narrowing?]
    split
    · exact .pure (.refl _)
    · cases function with
      | computed _ => exact .pure (.refl _)
      | literal name => exact .self (t.callType_repeatable name) .refl
  | assign | instanceOf | staticCall | staticProperty | closure =>
    exact .pure (he.narrowedOr _ (.refl _))

end Inference

end PhpCheck
