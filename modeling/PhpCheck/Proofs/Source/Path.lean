/-
  PhpCheck/Proofs/Source/Path.lean
  ================================
  **Access paths** — a variable with properties and calls of methods behind it,
  all of them named, whose arguments are access paths again.

  A path grows at its end, so what it goes through are its stems (`Expr.stems`):
  the path itself, its receiver, the receiver of that, and so on down to the
  variable at its root (`Expr.root?`).
-/
import PhpCheck.Proofs.Code.Within
import PhpCheck.Proofs.Source.Regular

namespace PhpCheck

open SourceReader (IsName)

/-- The argument is one value, which is passed as it is. -/
structure Arg.IsPlain (arg : Arg) : Prop where
  byValue : arg.byRef = false
  single : arg.unpacked = false

namespace Expr

inductive IsPath : Expr → Prop where
  | variable {span : Span} {name : String} :
      IsName name → IsPath (.variable span (.literal name))
  | property {span : Span} {receiver : Expr} {name : String} :
      IsPath receiver → IsName name → IsPath (.property span receiver (.literal name))
  | methodCall {span : Span} {receiver : Expr} {name : String} {args : List Arg} :
      IsPath receiver → IsName name → (∀ arg ∈ args, arg.IsPlain) →
      (∀ arg ∈ args, IsPath arg.value) →
      IsPath (.methodCall span receiver (.literal name) args)

/-- The expression and all receivers in it, the expression first. -/
def stems : Expr → List Expr
  | .property span receiver name => .property span receiver name :: receiver.stems
  | .methodCall span receiver method args =>
    .methodCall span receiver method args :: receiver.stems
  | x => [x]

/-- The name of the variable that all receivers start from. -/
def root? : Expr → Option String
  | .variable _ name => name.literal?
  | .property _ receiver _ | .methodCall _ receiver _ _ => receiver.root?
  | _ => none

theorem self_mem_stems (x : Expr) : x ∈ x.stems := by
  cases x <;> exact List.mem_cons_self

namespace IsPath

variable {x y : Expr} {P : Expr → Prop}

theorem of_mem_stems (h : x.IsPath) (hy : y ∈ x.stems) : y.IsPath := by
  induction h with
  | «variable» hname =>
    rw [List.mem_singleton.mp hy]
    exact .variable hname
  | property hreceiver hname ih =>
    rcases List.mem_cons.mp hy with rfl | hy
    · exact .property hreceiver hname
    · exact ih hy
  | methodCall hreceiver hname hplain hargs ih _ =>
    rcases List.mem_cons.mp hy with rfl | hy
    · exact .methodCall hreceiver hname hplain hargs
    · exact ih hy

/-- All that a path is made of are paths. -/
theorem everywhere (hP : ∀ y : Expr, y.IsPath → P y) (h : x.IsPath) : x.Everywhere P := by
  induction h with
  | «variable» hname => exact .leaf (hP _ (.variable hname)) rfl
  | property hreceiver hname ih => exact .above (hP _ (.property hreceiver hname)) rfl ih
  | methodCall hreceiver hname hplain hargs ih ihargs =>
    refine .intro (hP _ (.methodCall hreceiver hname hplain hargs)) fun y hy => ?_
    rcases List.mem_cons.mp hy with rfl | hy
    · exact ih
    · obtain ⟨arg, harg, rfl⟩ := List.mem_map.mp hy
      exact ihargs arg harg

theorem regular (h : x.IsPath) : x.Regular := by
  cases h with
  | «variable» hname => exact hname
  | property _ hname => exact hname
  | methodCall _ hname _ _ => exact hname

theorem distinct (h : x.IsPath) : x.Distinct := by
  cases h <;> trivial

end IsPath

end Expr

end PhpCheck
