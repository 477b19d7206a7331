/-
  PhpCheck/Proofs/Analysis/CompoundAssign.lean
  ============================================
  **Compound assignments** — whether `$a += $b` has the type of `$a + $b`, operator
  by operator.

  Inference takes every compound assignment but a quotient for a sum, whatever
  its operator is (`Expr.infer_compoundAssign_sum`).  For sums, differences,
  products and powers so is the operator by itself, and a quotient is a float in
  both forms; these agree.  A remainder is always an integer, and nothing is known
  of a concatenation.  So `%=` agrees with `%` only if the sum of the operands
  would be an integer, and `.=` with `.` only if nothing would be known of the sum
  (`Expr.compoundAssign_agrees_iff`).
-/
import PhpCheck.Proofs.Analysis.Arithmetic
import PhpCheck.Proofs.Analysis.LessKnown

namespace PhpCheck

open Analysis

/-! ### Sums -/

/-- What arithmetic makes of the types of two operands, looked up one after the other. -/
def SymbolTable.sumType? (t : SymbolTable) (e : Env) (left right : Expr) :
    Analysis (Option PhpType) := do
  let a ← left.infer t e
  let b ← right.infer t e
  return a.arithmetic? b

theorem PhpType.isResult_of_arithmetic? {a b type : PhpType} (h : a.arithmetic? b = some type) :
    type.IsResult := by
  obtain ⟨kind, hkind, rfl⟩ := Option.map_eq_some_iff.mp h
  unfold Kind.arithmetic? at hkind
  split at hkind
  · cases hkind
    exact ⟨.inr rfl, rfl⟩
  · split at hkind
    · cases hkind
      exact ⟨.inl rfl, rfl⟩
    · cases hkind

theorem SymbolTable.sumType?_yields (t : SymbolTable) (e : Env) (left right : Expr) :
    Yields (fun sum => ∀ type ∈ sum, type.IsResult) (t.sumType? e left right) :=
  .after _ fun _ => .after _ fun _ => .of_pure fun _ => PhpType.isResult_of_arithmetic?

namespace Expr

variable {t : SymbolTable} {e : Env} {op : ArithOp} {span span' : Span} {left right : Expr}

/-! ### The two forms -/

theorem infer_binary_sum (h : op ∈ [ArithOp.add, .subtract, .multiply, .power]) :
    (binary span (.arith op) left right).infer t e
      = (·.getD (e.narrowedOr (.binary span (.arith op) left right) .mixed))
          <$> t.sumType? e left right := by
  simp only [List.mem_cons, List.not_mem_nil, or_false] at h
  rcases h with rfl | rfl | rfl | rfl <;>
    simp only [infer, SymbolTable.sumType?, map_bind, map_pure]

theorem infer_compoundAssign_sum (h : op ≠ .divide) :
    (compoundAssign span op left right).infer t e
      = (·.getD (e.narrowedOr (.compoundAssign span op left right) .mixed))
          <$> t.sumType? e left right := by
  cases op with
  | divide => exact absurd rfl h
  | add | subtract | multiply | modulo | power | concat =>
    simp only [infer, SymbolTable.sumType?, map_bind, map_pure]

/-- The forms that are narrowed alike have one type, but for remainders and concatenations. -/
theorem infer_compoundAssign_eq (hmodulo : op ≠ .modulo) (hconcat : op ≠ .concat)
    (hn : e.narrowing? (.compoundAssign span op left right)
      = e.narrowing? (.binary span' (.arith op) left right)) :
    (compoundAssign span op left right).infer t e
      = (binary span' (.arith op) left right).infer t e := by
  have hnarrowed : e.narrowedOr (.compoundAssign span op left right) .mixed
      = e.narrowedOr (.binary span' (.arith op) left right) .mixed := by
    rw [Env.narrowedOr, Env.narrowedOr, hn]
  cases op with
  | modulo => exact absurd rfl hmodulo
  | concat => exact absurd rfl hconcat
  | divide => rfl
  | add | subtract | multiply | power =>
    rw [infer_compoundAssign_sum (by decide), infer_binary_sum (by decide), hnarrowed]

/-- What a compound assignment gives that is taken for a sum and not narrowed. -/
theorem outcome_compoundAssign (h : op ≠ .divide)
    (hn : e.narrowing? (.compoundAssign span op left right) = none) (m : Memory) :
    (((compoundAssign span op left right).infer t e).runFrom m).1
      = ((t.sumType? e left right).runFrom m).1.map (·.getD .mixed) := by
  have hmixed : e.narrowedOr (.compoundAssign span op left right) .mixed = .mixed := by
    rw [Env.narrowedOr, hn, Option.getD_none]
  rw [infer_compoundAssign_sum h, hmixed, runFrom_map]

theorem compoundAssign_integer_iff (h : op ≠ .divide)
    (hn : e.narrowing? (.compoundAssign span op left right) = none) (m : Memory) :
    (((compoundAssign span op left right).infer t e).runFrom m).1 = .ok (.of .integer false)
      ↔ ((t.sumType? e left right).runFrom m).1 = .ok (some (.of .integer false)) := by
  rw [outcome_compoundAssign h hn]
  rcases ((t.sumType? e left right).runFrom m).1 with cause | _ | type
  · exact iff_of_false nofun nofun
  · exact iff_of_false nofun nofun
  · simp [Except.map]

/-- Nothing is known of the assignment just if nothing is known of the sum, for a sum that is known
    is a number. -/
theorem compoundAssign_mixed_iff (h : op ≠ .divide)
    (hn : e.narrowing? (.compoundAssign span op left right) = none) (m : Memory) :
    (((compoundAssign span op left right).infer t e).runFrom m).1 = .ok .mixed
      ↔ ((t.sumType? e left right).runFrom m).1 = .ok none := by
  rw [outcome_compoundAssign h hn]
  cases hrun : ((t.sumType? e left right).runFrom m).1 with
  | error cause => exact iff_of_false nofun nofun
  | ok sum =>
    have hresult := t.sumType?_yields e left right m sum hrun
    cases sum with
    | none => exact iff_of_true rfl rfl
    | some type =>
      refine iff_of_false ?_ nofun
      rintro ⟨⟩
      exact absurd (hresult _ rfl).integerOrFloat (by decide)

/-- **When the two forms of an operator agree**, in an environment that narrows nothing.  The forms
    of a sum, difference, product, power or quotient do, with every operand and also in failing,
    be they asked for from one memory or one right after the other.  The forms of a remainder
    agree if arithmetic makes an integer of the operands, and those of a concatenation if it makes
    nothing of them, so never if an operand fails. -/
theorem compoundAssign_agrees_iff (hn : ∀ x, e.narrowing? x = none) (t : SymbolTable)
    (span span' : Span) (left right : Expr) :
    let assigned op := (compoundAssign span op left right).infer t e
    let plain op := (binary span' (.arith op) left right).infer t e
    (∀ op, op ≠ .modulo → op ≠ .concat → t.Agree (assigned op) (plain op)) ∧
    ∀ m m' : Memory,
      (((assigned .modulo).runFrom m).1 = ((plain .modulo).runFrom m').1 ↔
        ((t.sumType? e left right).runFrom m).1 = .ok (some (.of .integer false))) ∧
      (((assigned .concat).runFrom m).1 = ((plain .concat).runFrom m').1 ↔
        ((t.sumType? e left right).runFrom m).1 = .ok none) := by
  intro assigned plain
  constructor
  · intro op hmodulo hconcat
    have heq : assigned op = plain op :=
      infer_compoundAssign_eq hmodulo hconcat ((hn _).trans (hn _).symm)
    exact (infer_repeatable t e _).agree heq
  · intro m m'
    have hmodulo : ((plain .modulo).runFrom m').1 = .ok (.of .integer false) := rfl
    have hconcat : ((plain .concat).runFrom m').1 = .ok .mixed := by
      simp only [plain, infer, Env.narrowedOr, hn, Option.getD_none, runFrom_pure]
    rw [hmodulo, hconcat]
    constructor
    · exact compoundAssign_integer_iff (by decide) (hn _) m
    · exact compoundAssign_mixed_iff (by decide) (hn _) m

end Expr

/-! ### A pair of scales -/

namespace Scales

/-- The scales on which nothing is taken for anything else. -/
def corrected : Env := { scales with narrowings := .empty }

def assigned (op : ArithOp) (left right : String) : Expr :=
  .compoundAssign (.point 3 1) op (read left) (read right)

def operated (op : ArithOp) (left right : String) : Expr :=
  .binary (.point 8 1) (.arith op) (read left) (read right)

/-- A weight is raised in one way, and a rest divided in one way; a weight that is left by a
    division is not. -/
theorem corrected_forms :
    (∀ x, corrected.narrowing? x = none) ∧
      (assigned .power "weight" "other").infer emptyTable corrected
        = (operated .power "weight" "other").infer emptyTable corrected ∧
      (((assigned .power "weight" "other").infer emptyTable corrected).runFrom {}).1
        = .ok (.of .float false) ∧
      (((assigned .modulo "rest" "one").infer emptyTable corrected).runFrom {}).1
        = (((operated .modulo "rest" "one").infer emptyTable corrected).runFrom {}).1 ∧
      (((assigned .modulo "weight" "one").infer emptyTable corrected).runFrom {}).1
        ≠ (((operated .modulo "weight" "one").infer emptyTable corrected).runFrom {}).1 := by
  have hnone : ∀ x, corrected.narrowing? x = none := fun _ => rfl
  have hforms := fun left right =>
    Expr.compoundAssign_agrees_iff hnone emptyTable (.point 3 1) (.point 8 1) (read left)
      (read right)
  refine ⟨hnone, ((hforms "weight" "other").1 .power nofun nofun).1, rfl, ?_, ?_⟩
  · exact ((hforms "rest" "one").2 {} {}).1.mpr rfl
  · exact mt ((hforms "weight" "one").2 {} {}).1.mp nofun

/-- What is known of the prey of a snake cannot be told. -/
def prey : Expr := .property {} (read "snake") (.literal "prey")

/-- The forms differ for the remainder of a float and for the concatenation of integers; and where
    an operand fails, only one form of a remainder does. -/
theorem forms_apart :
    (∀ x, corrected.narrowing? x = none) ∧
      (((assigned .modulo "weight" "rest").infer emptyTable corrected).runFrom {}).1
        = .ok (.of .float false) ∧
      (((operated .modulo "weight" "rest").infer emptyTable corrected).runFrom {}).1
        = .ok (.of .integer false) ∧
      (((assigned .concat "rest" "one").infer emptyTable corrected).runFrom {}).1
        = .ok (.of .integer false) ∧
      (((operated .concat "rest" "one").infer emptyTable corrected).runFrom {}).1 = .ok .mixed ∧
      (∀ x, Kennel.yard.narrowing? x = none) ∧
      (((Expr.compoundAssign {} .modulo prey (.int {} 2)).infer cloneable Kennel.yard).runFrom
        {}).1 = .error (.circularHierarchy "Snake") ∧
      (((Expr.binary {} (.arith .modulo) prey (.int {} 2)).infer cloneable Kennel.yard).runFrom
        {}).1 = .ok (.of .integer false) :=
  ⟨fun _ => rfl, rfl, rfl, rfl, rfl, fun _ => rfl, rfl, rfl⟩

end Scales

end PhpCheck
