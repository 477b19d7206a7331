/-
  PhpCheck/Proofs/Analysis/Arithmetic.lean
  ========================================
  **Arithmetic** — the types in a whole tree of signs, operators and compound
  assignments over numbers.

  The leaves of such a tree are literals, truth values, casts and variables that
  are bound to numbers (`Env.Arithmetic`).  Nothing in it has to be looked up, and
  no type that is narrowed shows in it, unless it is that of a variable.  A float
  at a leaf makes floats of the operations above it, up to the next remainder,
  and a quotient is a float by itself (`Expr.carriesFloat`).  Truth values stay
  what they are under a sign, and are integers in an operation
  (`Env.Arithmetic.infer_looks`).
-/
import PhpCheck.Proofs.Analysis.Frame

namespace PhpCheck

/-! ### Numbers -/

/-- The kinds that count as numbers in arithmetic. -/
def Kind.IsNumeric (kind : Kind) : Prop := kind = .integer ∨ kind = .float ∨ kind = .boolean

theorem Kind.arithmetic?_of_isNumeric {a b : Kind} (ha : a.IsNumeric) (hb : b.IsNumeric) :
    a.arithmetic? b = some (if a = .float ∨ b = .float then .float else .integer) := by
  rcases ha with rfl | rfl | rfl <;> rcases hb with rfl | rfl | rfl <;> rfl

/-- The result of an operation: a number other than a truth value, and never null. -/
structure PhpType.IsResult (type : PhpType) : Prop where
  integerOrFloat : type.kind = .integer ∨ type.kind = .float
  notNull : type.nullable = false

theorem PhpType.IsResult.isNumeric {type : PhpType} (h : type.IsResult) : type.kind.IsNumeric :=
  h.integerOrFloat.imp_right .inl

/-- Numbers have a sum, which is a float just when one of them is. -/
theorem PhpType.arithmetic?_of_isNumeric {a b : PhpType} (ha : a.kind.IsNumeric)
    (hb : b.kind.IsNumeric) :
    ∃ type, a.arithmetic? b = some type ∧ type.IsResult ∧
      (type.kind = .float ↔ a.kind = .float ∨ b.kind = .float) := by
  rw [PhpType.arithmetic?, Kind.arithmetic?_of_isNumeric ha hb, Option.map_some]
  by_cases h : a.kind = .float ∨ b.kind = .float
  · rw [if_pos h]
    exact ⟨_, rfl, ⟨.inr rfl, rfl⟩, iff_of_true rfl h⟩
  · rw [if_neg h]
    exact ⟨_, rfl, ⟨.inl rfl, rfl⟩, iff_of_false (by decide) h⟩

/-! ### Trees -/

/-- The expression is arithmetic over numbers.  A cast is a leaf, whatever is cast; a variable is
    bound to numbers and not narrowed itself. -/
inductive Env.Arithmetic (e : Env) : Expr → Prop where
  | int {span : Span} {value : Int} : Arithmetic e (.int span value)
  | float {span : Span} {value : Binary64} : Arithmetic e (.float span value)
  | truth {span : Span} {name : String} :
      Text.sameName name "true" ∨ Text.sameName name "false" →
      Arithmetic e (.constant span name)
  | cast {span : Span} {kind : CastKind} {operand : Expr} :
      kind = .int ∨ kind = .float ∨ kind = .bool → Arithmetic e (.cast span kind operand)
  | variable {span : Span} {name : String} {type : PhpType} :
      e.bound? name = some type → type.kind.IsNumeric →
      e.narrowing? (.variable span (.literal name)) = none →
      Arithmetic e (.variable span (.literal name))
  | sign {span : Span} {op : UnaryOp} {operand : Expr} :
      op ≠ .not → Arithmetic e operand → Arithmetic e (.unary span op operand)
  | binary {span : Span} {op : ArithOp} {left right : Expr} :
      op ≠ .concat → Arithmetic e left → Arithmetic e right →
      Arithmetic e (.binary span (.arith op) left right)
  | compoundAssign {span : Span} {op : ArithOp} {target value : Expr} :
      op ≠ .concat → op ≠ .modulo → Arithmetic e target → Arithmetic e value →
      Arithmetic e (.compoundAssign span op target value)

/-- Whether the value of arithmetic is a float: a leaf is one by its kind, a quotient is one and a
    remainder is none, and any other node is one if one of its operands is. -/
def Expr.carriesFloat (e : Env) : Expr → Bool
  | .float .. => true
  | .cast _ kind _ => decide (kind = .float)
  | .variable _ name => (name.literal?.bind e.bound?).any (decide <| ·.kind = .float)
  | .unary _ _ operand => operand.carriesFloat e
  | .binary _ (.arith .divide) _ _ => true
  | .binary _ (.arith .modulo) _ _ => false
  | .binary _ _ left right => left.carriesFloat e || right.carriesFloat e
  | .compoundAssign _ .divide _ _ => true
  | .compoundAssign _ _ target value => target.carriesFloat e || value.carriesFloat e
  | _ => false

/-- The node joins two operands. -/
def Expr.IsOperation : Expr → Prop
  | .binary .. | .compoundAssign .. => True
  | _ => False

/-- What inference says of a node in arithmetic: without any look-up, it has a type of numbers,
    which is a float just when the node carries one, and the result of an operation is neither a
    truth value nor null. -/
structure Expr.InfersNumber (t : SymbolTable) (e : Env) (x : Expr) (type : PhpType) : Prop where
  infer_eq : x.infer t e = pure type
  isNumeric : type.kind.IsNumeric
  float_iff : type.kind = .float ↔ x.carriesFloat e = true
  isResult : x.IsOperation → type.IsResult

section Trees

variable {t : SymbolTable} {e : Env} {x y : Expr}

/-- The type of an operation is told by whether it carries a float. -/
theorem Expr.InfersNumber.eq_of_isOperation {type : PhpType} (h : x.InfersNumber t e type)
    (hx : x.IsOperation) :
    type = .of (if x.carriesFloat e = true then .float else .integer) false := by
  have hresult := h.isResult hx
  by_cases hcarries : x.carriesFloat e = true
  · rw [if_pos hcarries]
    exact PhpType.eq_of_kind_nullable (h.float_iff.mpr hcarries) hresult.notNull
  · rw [if_neg hcarries]
    have hkind := hresult.integerOrFloat.resolve_right (mt h.float_iff.mp hcarries)
    exact PhpType.eq_of_kind_nullable hkind hresult.notNull

namespace Env.Arithmetic

/-- What inference comes by in arithmetic is arithmetic. -/
theorem of_looks (h : e.Arithmetic x) (hy : t.Looks x y) : e.Arithmetic y := by
  induction hy with
  | refl => exact h
  | tail _ hlast ih =>
    cases ih with
    | int | float | truth | cast | «variable» => cases hlast
    | sign _ hoperand =>
      cases List.mem_singleton.mp hlast
      exact hoperand
    | binary _ hleft hright =>
      rcases List.mem_pair.mp hlast with rfl | rfl
      · exact hleft
      · exact hright
    | compoundAssign _ _ htarget hvalue =>
      rcases List.mem_pair.mp hlast with rfl | rfl
      · exact htarget
      · exact hvalue

/-- A node with a type of its own, whatever its operands are. -/
theorem infersNumber_of_fixed {kind : Kind} (hinfer : x.infer t e = pure (.of kind false))
    (hkind : kind = .integer ∨ kind = .float)
    (hcarries : x.carriesFloat e = decide (kind = .float)) : ∃ type, x.InfersNumber t e type := by
  refine ⟨_, hinfer, hkind.imp_right .inl, ?_, fun _ => ⟨hkind, ?_⟩⟩
  · rw [hcarries, decide_eq_true_iff, PhpType.kind_of]
  · rcases hkind with rfl | rfl <;> rfl

/-- A truth value. -/
theorem infersNumber_of_truth (hinfer : x.infer t e = pure (.of .boolean false))
    (hcarries : x.carriesFloat e = false) (hx : ¬x.IsOperation) :
    ∃ type, x.InfersNumber t e type := by
  have hfloat : ¬(PhpType.of .boolean false).kind = .float := by decide
  refine ⟨_, hinfer, .inr (.inr rfl), iff_of_false hfloat ?_, fun h => absurd h hx⟩
  rw [hcarries]
  exact Bool.false_ne_true

/-- A node with the type of the sum of its operands. -/
theorem infersNumber_of_operands {left right : Expr} {a b otherwise : PhpType}
    (hleft : left.InfersNumber t e a) (hright : right.InfersNumber t e b)
    (hinfer : x.infer t e = (do
      let a ← left.infer t e
      let b ← right.infer t e
      return (a.arithmetic? b).getD otherwise))
    (hcarries : x.carriesFloat e = (left.carriesFloat e || right.carriesFloat e)) :
    ∃ type, x.InfersNumber t e type := by
  obtain ⟨type, harithmetic, hresult, hfloat⟩ :=
    PhpType.arithmetic?_of_isNumeric hleft.isNumeric hright.isNumeric
  refine ⟨type, ?_, hresult.isNumeric, ?_, fun _ => hresult⟩
  · rw [hinfer, hleft.infer_eq, hright.infer_eq, pure_bind, pure_bind, harithmetic,
      Option.getD_some]
  · rw [hfloat, hcarries, Bool.or_eq_true, hleft.float_iff, hright.float_iff]

/-- The type of a tree, by induction on the tree. -/
theorem exists_infersNumber (h : e.Arithmetic x) (t : SymbolTable) :
    ∃ type, x.InfersNumber t e type := by
  induction h with
  | int => exact infersNumber_of_fixed rfl (.inl rfl) rfl
  | float => exact infersNumber_of_fixed rfl (.inr rfl) rfl
  | truth hname =>
    refine infersNumber_of_truth ?_ rfl id
    rw [Expr.infer, constantType?, if_pos hname, Option.getD_some]
  | cast hkind =>
    rcases hkind with rfl | rfl | rfl
    · exact infersNumber_of_fixed rfl (.inl rfl) rfl
    · exact infersNumber_of_fixed rfl (.inr rfl) rfl
    · exact infersNumber_of_truth rfl rfl id
  | @«variable» span name type hbound hnumeric hnarrowing =>
    refine ⟨type, ?_, hnumeric, ?_, False.elim⟩
    · rw [Expr.infer, Env.narrowedOr, hnarrowing, hbound]
      rfl
    · simp [Expr.carriesFloat, Name.literal?, hbound]
  | @sign span op operand hop _ ih =>
    obtain ⟨type, htype⟩ := ih
    refine ⟨type, ?_, htype.isNumeric, htype.float_iff, False.elim⟩
    cases op with
    | not => exact absurd rfl hop
    | minus | plus => exact htype.infer_eq
  | @binary span op left right hop _ _ ihl ihr =>
    obtain ⟨a, ha⟩ := ihl
    obtain ⟨b, hb⟩ := ihr
    cases op with
    | concat => exact absurd rfl hop
    | divide => exact infersNumber_of_fixed rfl (.inr rfl) rfl
    | modulo => exact infersNumber_of_fixed rfl (.inl rfl) rfl
    | add | subtract | multiply | power => exact infersNumber_of_operands ha hb rfl rfl
  | @compoundAssign span op target value hconcat hmodulo _ _ iht ihv =>
    obtain ⟨a, ha⟩ := iht
    obtain ⟨b, hb⟩ := ihv
    cases op with
    | concat => exact absurd rfl hconcat
    | modulo => exact absurd rfl hmodulo
    | divide => exact infersNumber_of_fixed rfl (.inr rfl) rfl
    | add | subtract | multiply | power => exact infersNumber_of_operands ha hb rfl rfl

/-- **The types in arithmetic.**  Inference gives each node of a tree over numbers a type of
    numbers, whatever else is narrowed.  The result of an operation is an integer or a float, and
    never null; a node is a float just when it carries one. -/
theorem infer_looks (h : e.Arithmetic x) (hy : t.Looks x y) : ∃ type, y.InfersNumber t e type :=
  (h.of_looks hy).exists_infersNumber t

end Env.Arithmetic

end Trees

/-! ### A pair of scales -/

namespace Scales

def read (name : String) : Expr := .variable {} (.literal name)

/-- How many animals are on the scales, one of them perhaps. -/
def count : Expr := .binary {} (.arith .add) (read "one") (read "other")

def load : Expr := .unary {} .minus (.binary {} (.arith .multiply) count (read "weight"))

/-- Takes what is left of a load, by sevens, to the rest. -/
def takeRest : Expr :=
  .compoundAssign {} .add (read "rest")
    (.binary {} (.arith .modulo) load (.cast {} .int (.string {} "7")))

/-- The count is taken for a dog. -/
def scales : Env :=
  { file := "scales.php",
    bindings := .ofList [("one", .of .integer true), ("other", .of .boolean true),
      ("weight", .of .float true), ("rest", .of .integer false)],
    narrowings := .ofList [(count.text, .object "Dog")] }

def emptyTable : SymbolTable := { source := Program.source {} }

theorem takeRest_arithmetic : scales.Arithmetic takeRest := by
  have hcount : scales.Arithmetic count :=
    .binary nofun (.variable rfl (.inl rfl) rfl) (.variable rfl (.inr (.inr rfl)) rfl)
  have hload : scales.Arithmetic load :=
    .sign nofun (.binary nofun hcount (.variable rfl (.inr (.inl rfl)) rfl))
  exact .compoundAssign nofun nofun (.variable rfl (.inl rfl) rfl)
    (.binary nofun hload (.cast (.inl rfl)))

/-- The count is an integer, though it is taken for a dog and may be null in part; the load is a
    float, and what it adds to the rest is an integer again. -/
theorem takeRest_types :
    scales.Arithmetic takeRest ∧ scales.isNarrowed count = true ∧
      (∃ type, count.InfersNumber emptyTable scales type ∧ type = .of .integer false) ∧
      (∃ type, load.InfersNumber emptyTable scales type ∧ type.kind = .float) ∧
      ∃ type, takeRest.InfersNumber emptyTable scales type ∧ type = .of .integer false := by
  have hload : emptyTable.Looks takeRest load :=
    .head (.tail _ (.head _)) (.single (.head _))
  have hcount : emptyTable.Looks takeRest count :=
    hload.trans (.head (.head _) (.single (.head _)))
  obtain ⟨a, ha⟩ := takeRest_arithmetic.infer_looks hcount
  obtain ⟨b, hb⟩ := takeRest_arithmetic.infer_looks hload
  obtain ⟨c, hc⟩ := takeRest_arithmetic.infer_looks (t := emptyTable) .refl
  exact ⟨takeRest_arithmetic, rfl, ⟨a, ha, ha.eq_of_isOperation trivial⟩,
    ⟨b, hb, hb.float_iff.mpr rfl⟩, ⟨c, hc, hc.eq_of_isOperation trivial⟩⟩

end Scales

end PhpCheck
