/-
  PhpCheck/Proofs/Code/Within.lean
  ================================
  **Sub-expressions** — the expressions that an expression or a node is made of.

  `Expr.children` lists what stands directly below an expression, wherever it
  stands: as an operand, as a computed name, in an argument or an item, or as the
  default value of a parameter.  What holds everywhere in an expression holds
  everywhere in its children (`Expr.Everywhere.child`).
-/
import Mathlib.Logic.Relation
import PhpCheck.Code.Node

namespace PhpCheck

def Name.children : Name → List Expr
  | .literal _ => []
  | .computed value => [value]

def Item.children (item : Item) : List Expr := item.key.toList ++ [item.value]

namespace Expr

/-- The expressions directly below an expression. -/
def children : Expr → List Expr
  | .variable _ name => name.children
  | .int .. | .float .. | .string .. | .constant .. => []
  | .array _ items => items.flatMap Item.children
  | .binary _ _ left right => [left, right]
  | .unary _ _ operand | .cast _ _ operand => [operand]
  | .assign _ target value | .compoundAssign _ _ target value => [target, value]
  | .instanceOf _ operand className => operand :: className.children
  | .new _ className args => className.children ++ args.map (·.value)
  | .classConstant _ className _ => className.children
  | .methodCall _ receiver method args => receiver :: (method.children ++ args.map (·.value))
  | .staticCall _ className method args =>
      className.children ++ (method.children ++ args.map (·.value))
  | .property _ receiver name => receiver :: name.children
  | .staticProperty _ className name => className.children ++ name.children
  | .call _ function args => function.children ++ args.map (·.value)
  | .closure _ signature => signature.params.filterMap (·.default)

theorem mem_children_of_arg {x : Expr} {arg : Arg} (h : arg ∈ x.args) : arg.value ∈ x.children := by
  have hmem := List.mem_map_of_mem (f := Arg.value) h
  cases x with
  | new | methodCall | staticCall | call => simp_all [children, args]
  | _ => cases h

/-- An expression is within itself and within all that it stands below. -/
abbrev Within : Expr → Expr → Prop := Relation.ReflTransGen fun x y => x ∈ y.children

/-- All sub-expressions have the property, the expression itself included. -/
def Everywhere (P : Expr → Prop) (x : Expr) : Prop := ∀ y, y.Within x → P y

namespace Everywhere

variable {P : Expr → Prop} {x y : Expr}

theorem self (h : x.Everywhere P) : P x := h x .refl

theorem child (h : x.Everywhere P) (hc : y ∈ x.children) : y.Everywhere P :=
  fun z hz => h z (hz.tail hc)

theorem intro (hx : P x) (hc : ∀ y ∈ x.children, y.Everywhere P) : x.Everywhere P := by
  intro z hz
  rcases hz.cases_tail with rfl | ⟨y, hz, hy⟩
  · exact hx
  · exact hc y hy z hz

theorem leaf (hx : P x) (hc : x.children = []) : x.Everywhere P := by
  refine intro hx fun y hy => ?_
  rw [hc] at hy
  cases hy

theorem above (hx : P x) (hc : x.children = [y]) (hy : y.Everywhere P) : x.Everywhere P := by
  refine intro hx fun z hz => ?_
  rw [hc] at hz
  rwa [List.mem_singleton.mp hz]

end Everywhere

end Expr

/-! ### Induction on sub-expressions -/

theorem Name.sizeOf_lt {name : Name} {x : Expr} (h : x ∈ name.children) :
    sizeOf x < sizeOf name := by
  cases name with
  | literal => cases h
  | computed value =>
    cases List.mem_singleton.mp h
    simp

theorem Item.sizeOf_lt {item : Item} {x : Expr} (h : x ∈ item.children) :
    sizeOf x < sizeOf item := by
  obtain ⟨key, value, byRef⟩ := item
  simp only [Item.children, List.mem_append, Option.mem_toList, List.mem_singleton] at h
  rcases h with h | rfl
  · cases h
    simp only [Item.mk.sizeOf_spec, Option.some.sizeOf_spec]
    omega
  · simp only [Item.mk.sizeOf_spec]
    omega

theorem sizeOf_value_lt {args : List Arg} {x : Expr} (h : x ∈ args.map (·.value)) :
    sizeOf x < sizeOf args := by
  obtain ⟨arg, harg, rfl⟩ := List.mem_map.mp h
  have hmem := List.sizeOf_lt_of_mem harg
  have hvalue : sizeOf arg.value < sizeOf arg := by
    cases arg
    simp
    omega
  omega

theorem sizeOf_default_lt {params : List Param} {x : Expr} (h : x ∈ params.filterMap (·.default)) :
    sizeOf x < sizeOf params := by
  obtain ⟨param, hparam, hdefault⟩ := List.mem_filterMap.mp h
  have hmem := List.sizeOf_lt_of_mem hparam
  have hvalue : sizeOf x < sizeOf param := by
    cases param
    cases hdefault
    simp
    omega
  omega

theorem Expr.sizeOf_lt_of_mem_children {x y : Expr} (h : y ∈ x.children) : sizeOf y < sizeOf x := by
  cases x with
  | int | float | string | constant => cases h
  | array _ items =>
    obtain ⟨item, hitem, hy⟩ := List.mem_flatMap.mp h
    have hlist := List.sizeOf_lt_of_mem hitem
    have hsize := Item.sizeOf_lt hy
    simp only [Expr.array.sizeOf_spec]
    omega
  | closure _ signature =>
    have hsize := sizeOf_default_lt h
    cases signature
    simp at hsize ⊢
    omega
  | binary =>
    simp only [Expr.children, List.mem_cons, List.not_mem_nil, or_false] at h
    rcases h with rfl | rfl <;>
      · simp only [Expr.binary.sizeOf_spec]
        omega
  | assign =>
    simp only [Expr.children, List.mem_cons, List.not_mem_nil, or_false] at h
    rcases h with rfl | rfl <;>
      · simp only [Expr.assign.sizeOf_spec]
        omega
  | compoundAssign =>
    simp only [Expr.children, List.mem_cons, List.not_mem_nil, or_false] at h
    rcases h with rfl | rfl <;>
      · simp only [Expr.compoundAssign.sizeOf_spec]
        omega
  | unary =>
    cases List.mem_singleton.mp h
    simp only [Expr.unary.sizeOf_spec]
    omega
  | cast =>
    cases List.mem_singleton.mp h
    simp only [Expr.cast.sizeOf_spec]
    omega
  | «variable» | classConstant =>
    have hname := Name.sizeOf_lt h
    simp
    omega
  | instanceOf | property =>
    rcases List.mem_cons.mp h with rfl | h
    · simp
      omega
    · have hname := Name.sizeOf_lt h
      simp
      omega
  | new | call =>
    rcases List.mem_append.mp h with h | h
    · have hname := Name.sizeOf_lt h
      simp
      omega
    · have hargs := sizeOf_value_lt h
      simp
      omega
  | staticProperty =>
    rcases List.mem_append.mp h with h | h <;>
      · have hname := Name.sizeOf_lt h
        simp
        omega
  | methodCall =>
    rcases List.mem_cons.mp h with rfl | h
    · simp
      omega
    · rcases List.mem_append.mp h with h | h
      · have hname := Name.sizeOf_lt h
        simp
        omega
      · have hargs := sizeOf_value_lt h
        simp
        omega
  | staticCall =>
    rcases List.mem_append.mp h with h | h
    · have hname := Name.sizeOf_lt h
      simp
      omega
    · rcases List.mem_append.mp h with h | h
      · have hname := Name.sizeOf_lt h
        simp
        omega
      · have hargs := sizeOf_value_lt h
        simp
        omega

/-- Induction on an expression by way of its children. -/
theorem Expr.childInduction {P : Expr → Prop} (step : ∀ x, (∀ y ∈ x.children, P y) → P x)
    (x : Expr) : P x :=
  step x fun y hy =>
    have := Expr.sizeOf_lt_of_mem_children hy
    Expr.childInduction step y
termination_by sizeOf x

/-! ### Nodes -/

/-- The expressions of a node that stand below no other one. -/
def Node.exprs : Node → List Expr
  | .expr x => [x]
  | .method m => m.params.filterMap (·.default)

/-- All expressions within a node have the property. -/
def Node.Everywhere (P : Expr → Prop) (node : Node) : Prop := ∀ x ∈ node.exprs, x.Everywhere P

theorem Node.Everywhere.expr {P : Expr → Prop} {x : Expr} (h : (Node.expr x).Everywhere P) :
    x.Everywhere P := h x List.mem_cons_self

theorem Node.Everywhere.arg {P : Expr → Prop} {x : Expr} (h : (Node.expr x).Everywhere P) :
    ∀ arg ∈ x.args, arg.value.Everywhere P :=
  fun _ harg => h.expr.child (Expr.mem_children_of_arg harg)

end PhpCheck
