/-
  PhpCheck/Proofs/Analysis/Rules.lean
  ===================================
  **Rules can be repeated** — what a rule finds at a node it finds again at any
  later time.

  The rules share three parts, and each is repeatable: the look-up of the class
  that a name stands for, the question whether a member can be used, and the
  comparison of arguments with parameters.
-/
import PhpCheck.Proofs.Analysis.Inference
import PhpCheck.Rules.RuleSet

namespace PhpCheck

variable (t : SymbolTable) (e : Env)

namespace SymbolTable

/-! ### Arguments -/

theorem acceptsArg_repeatable (expected given : PhpType) :
    Repeatable t (t.acceptsArg e expected given) := by
  unfold acceptsArg
  split
  · exact .pure true
  · split
    · exact (t.classInfo?_repeatable _).bind fun c => .pure _
    · exact .pure _

theorem typeComplaints_repeatable (s : Signature) (callee : Callee) (index : Nat)
    (args : List Arg) : Repeatable t (t.typeComplaints e s callee index args) := by
  induction args generalizing index with
  | nil => exact .pure []
  | cons arg rest ih =>
    unfold typeComplaints
    split
    · exact .pure []
    · split
      · refine (arg.value.infer_repeatable t e).bind fun given => ?_
        refine (t.acceptsArg_repeatable e _ given).bind fun fits => ?_
        exact (ih (index + 1)).bind fun others => .pure _
      · exact .pure []

theorem argComplaints_repeatable (settings : Settings) (s : Signature) (args : List Arg)
    (callee : Callee) : Repeatable t (t.argComplaints e settings s args callee) := by
  unfold argComplaints
  split
  · exact .pure _
  · split
    · exact t.typeComplaints_repeatable e s callee 0 args
    · exact .pure []

/-! ### Methods -/

theorem missingMethod_repeatable (c : ClassInfo) (name : String) (ancestors : List String) :
    Repeatable t (t.missingMethod c name ancestors) := by
  induction ancestors with
  | nil => exact .pure _
  | cons ancestor rest ih =>
    unfold missingMethod
    refine (t.classInfo_repeatable ancestor).bind fun parent => ?_
    split
    · exact .pure _
    · exact ih

theorem methodComplaints_repeatable (settings : Settings) (c : ClassInfo) (name : String)
    (args : List Arg) : Repeatable t (t.methodComplaints e settings c name args) := by
  unfold methodComplaints
  split
  · rename_i m _
    refine (t.canUse_repeatable e m.toMembership).bind fun usable => ?_
    split
    · exact .pure _
    · exact (t.argComplaints_repeatable e settings _ args _).bind fun complaints => .pure _
  · exact (t.missingMethod_repeatable c name _).bind fun complaint => .pure [complaint]

/-- The findings about a call of a method on a receiver of a type. -/
def receiverFindings (settings : Settings) (receiver : PhpType) (name : String)
    (args : List Arg) : Analysis (List Finding) := do
  let some className := receiver.className? | return []
  let some c ← t.classInfo? className | return []
  return Finding.ofComplaints (← t.methodComplaints e settings c name args)

theorem receiverFindings_repeatable (settings : Settings) (receiver : PhpType) (name : String)
    (args : List Arg) : Repeatable t (t.receiverFindings e settings receiver name args) := by
  unfold receiverFindings
  split
  · refine (t.classInfo?_repeatable _).bind fun c => ?_
    cases c with
    | none => exact .pure []
    | some c => exact (t.methodComplaints_repeatable e settings c name args).bind fun _ => .pure _
  · exact .pure []

theorem staticMethodComplaints_repeatable (settings : Settings) (current : ClassInfo)
    (currentName className name : String) (args : List Arg) :
    Repeatable t
      (t.staticMethodComplaints e settings current currentName className name args) := by
  unfold staticMethodComplaints
  refine (t.classInfo?_repeatable className).bind fun target => ?_
  cases target with
  | none => exact .pure []
  | some target =>
    dsimp only
    split
    · split
      · exact .pure _
      · split
        · exact .pure _
        · exact (t.argComplaints_repeatable e settings _ args _).bind fun complaints => .pure _
    · exact .pure _

theorem parentCallComplaints_repeatable (settings : Settings) (parent name : String)
    (args : List Arg) : Repeatable t (t.parentCallComplaints e settings parent name args) := by
  unfold parentCallComplaints
  split
  · exact .pure []
  · refine (t.classInfo_repeatable parent).bind fun c => ?_
    split
    · exact t.argComplaints_repeatable e settings _ args _
    · exact .pure []

theorem staticCallComplaints_repeatable (settings : Settings) (currentName written name : String)
    (args : List Arg) :
    Repeatable t (t.staticCallComplaints e settings currentName written name args) := by
  unfold staticCallComplaints
  refine (t.classInfo?_repeatable currentName).bind fun current => ?_
  cases current with
  | none => exact .pure []
  | some current =>
    dsimp only
    split
    · exact t.staticMethodComplaints_repeatable e settings current _ _ name args
    · exact t.staticMethodComplaints_repeatable e settings current _ _ name args
    · split
      · split
        · exact t.parentCallComplaints_repeatable e settings _ name args
        · exact t.staticMethodComplaints_repeatable e settings current _ _ name args
      · exact .pure _
    · exact t.staticMethodComplaints_repeatable e settings current _ _ name args

/-! ### Instantiations and static properties -/

theorem instantiated?_repeatable (written : String) :
    Repeatable t (t.instantiated? e written) := by
  unfold instantiated?
  split
  · exact .pure none
  · exact .pure _
  · split
    · exact (t.classInfo?_repeatable _).bind fun c => .pure _
    · exact .pure none
  · exact .pure _

theorem instantiationComplaints_repeatable (settings : Settings) (className : String)
    (args : List Arg) :
    Repeatable t (t.instantiationComplaints e settings className args) := by
  unfold instantiationComplaints
  refine (t.classInfo?_repeatable className).bind fun c => ?_
  cases c with
  | none => exact .pure _
  | some c =>
    dsimp only
    split
    · exact .pure _
    · split
      · exact .pure _
      · split
        · exact t.argComplaints_repeatable e settings _ args _
        · exact .pure _

theorem propertyOwner_repeatable (written name : String) :
    Repeatable t (t.propertyOwner e written name) := by
  unfold propertyOwner
  split
  · exact .pure _
  · exact .pure _
  · split
    · refine (t.classInfo?_repeatable _).bind fun c => ?_
      cases c with
      | none => exact .pure _
      | some c => cases hp : c.parent <;> simp only [hp] <;> exact .pure _
    · exact .pure _
  · exact .pure _

theorem staticPropertyComplaints_repeatable (fetch : Expr) (className name : String) :
    Repeatable t (t.staticPropertyComplaints e fetch className name) := by
  unfold staticPropertyComplaints
  refine (t.classInfo?_repeatable className).bind fun c => ?_
  cases c with
  | none => exact .pure []
  | some c =>
    dsimp only
    split
    · split
      · exact .pure _
      · refine (t.canUse_repeatable e _).bind fun usable => ?_
        split <;> exact .pure _
    · exact .pure _

/-! ### Hints -/

theorem unknownClass?_repeatable (hint : Option TypeHint) :
    Repeatable t (t.unknownClass? hint) := by
  unfold unknownClass?
  split
  · split
    · exact .pure none
    · refine (t.hasClass_repeatable _).bind fun known => ?_
      split <;> exact .pure _
  · exact .pure none

theorem signatureFindings_repeatable (owner : HintOwner) (params : List Param)
    (result : Option TypeHint) : Repeatable t (t.signatureFindings owner params result) := by
  unfold signatureFindings
  refine (Repeatable.mapM ?_).bind fun ofParams => ?_
  · intro p _
    exact (t.unknownClass?_repeatable p.hint).bind fun unknown => .pure _
  · exact (t.unknownClass?_repeatable result).bind fun unknown => .pure _

end SymbolTable

/-! ### The rules -/

theorem methodCallFindings_repeatable (settings : Settings) (node : Node) :
    Repeatable t (methodCallFindings settings t e node) := by
  unfold methodCallFindings
  split
  · split
    · exact .pure []
    · rename_i receiver name args _
      refine (receiver.infer_repeatable t e).bind fun type => ?_
      exact t.receiverFindings_repeatable e settings type name args
  · exact .pure []

theorem staticCallFindings_repeatable (settings : Settings) (node : Node) :
    Repeatable t (staticCallFindings settings t e node) := by
  unfold staticCallFindings
  split
  · split
    · exact (t.staticCallComplaints_repeatable e settings _ _ _ _).bind fun _ => .pure _
    · exact .pure []
  · exact .pure []

theorem instantiationFindings_repeatable (settings : Settings) (node : Node) :
    Repeatable t (instantiationFindings settings t e node) := by
  unfold instantiationFindings
  split
  · refine (t.instantiated?_repeatable e _).bind fun className => ?_
    cases className with
    | none => exact .pure []
    | some className =>
      exact (t.instantiationComplaints_repeatable e settings className _).bind fun _ => .pure _
  · exact .pure []

theorem staticPropertyFindings_repeatable (node : Node) :
    Repeatable t (staticPropertyFindings t e node) := by
  unfold staticPropertyFindings
  split
  · refine (t.propertyOwner_repeatable e _ _).bind fun owner => ?_
    cases owner with
    | error complaints => exact .pure _
    | ok className =>
      exact (t.staticPropertyComplaints_repeatable e _ className _).bind fun _ => .pure _
  · exact .pure []

theorem methodHintFindings_repeatable (node : Node) :
    Repeatable t (methodHintFindings t e node) := by
  unfold methodHintFindings
  split
  · split
    · exact t.signatureFindings_repeatable _ _ _
    · exact .pure []
  · exact .pure []

theorem closureHintFindings_repeatable (node : Node) :
    Repeatable t (closureHintFindings t e node) := by
  unfold closureHintFindings
  split
  · exact t.signatureFindings_repeatable _ _ _
  · exact .pure []

/-- **Rules can be repeated.** -/
theorem RuleSet.defaults_repeatable {settings : Settings} {r : Rule}
    (hr : r ∈ RuleSet.defaults settings) (node : Node) : Repeatable t (r.check t e node) := by
  simp only [RuleSet.defaults, List.mem_cons, List.not_mem_nil, or_false] at hr
  rcases hr with rfl | rfl | rfl | rfl | rfl | rfl
  · exact methodCallFindings_repeatable t e settings node
  · exact staticCallFindings_repeatable t e settings node
  · exact instantiationFindings_repeatable t e settings node
  · exact staticPropertyFindings_repeatable t e node
  · exact methodHintFindings_repeatable t e node
  · exact closureHintFindings_repeatable t e node

end PhpCheck
