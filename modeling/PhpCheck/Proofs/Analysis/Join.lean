/-
  PhpCheck/Proofs/Analysis/Join.lean
  ==================================
  **Where branches meet** — a node about which there is nothing to say in one
  branch needs no complaint behind both.

  The default rules look at variables through inference only: at the receiver of
  a call, which is passed over if its type is not known, and at the arguments,
  whose wider types fit wherever the narrower ones did.  So where less is known
  of the variables, a rule that said nothing goes on saying nothing
  (`RuleSet.defaults_carries`), and a join of two branches makes no new
  diagnostics (`RuleSet.silent_of_intersect`).
-/
import PhpCheck.Proofs.Analysis.LessKnown

namespace PhpCheck

open Analysis

/-- If there is nothing in the first list, there is nothing in the second. -/
def NoMore {α : Type} (as bs : List α) : Prop := as = [] → bs = []

variable {t : SymbolTable} {e e' : Env}

theorem Finding.ofComplaints_eq_nil {cs : List Complaint} : ofComplaints cs = [] ↔ cs = [] :=
  List.map_eq_nil_iff

theorem noMore_ofComplaints {cs cs' : List Complaint} (h : NoMore cs cs') :
    NoMore (Finding.ofComplaints cs) (Finding.ofComplaints cs') := by
  intro hnone
  exact Finding.ofComplaints_eq_nil.mpr (h (Finding.ofComplaints_eq_nil.mp hnone))

theorem Carries.findings {x y : Analysis (List Complaint)} (h : Carries t NoMore x y) :
    Carries t NoMore (do return Finding.ofComplaints (← x))
      (do return Finding.ofComplaints (← y)) :=
  h.bind (fun _ => .pure _) (fun _ => .pure _) fun _ _ hmore => .pure (noMore_ofComplaints hmore)

namespace SymbolTable

/-! ### Arguments -/

theorem acceptsArg_carries (he : e.WidensTo e') (expected : PhpType) {a a' : PhpType}
    (h : a.WidensTo a') :
    Carries t (fun fits fits' => fits = true → fits' = true) (t.acceptsArg e expected a)
      (t.acceptsArg e' expected a') := by
  rcases h with h | h
  · have hsame : t.acceptsArg e' expected a' = t.acceptsArg e expected a := by
      unfold acceptsArg PhpType.accepts PhpType.isMixed PhpType.isScalar
      rw [he.strict, PhpType.className?_congr h, h]
    rw [hsame]
    exact .self (t.acceptsArg_repeatable e expected a) fun _ => id
  · have hmixed : t.acceptsArg e' expected a' = pure true := by
      simp [acceptsArg, PhpType.accepts, PhpType.isMixed, h]
    rw [hmixed]
    exact .skip (t.acceptsArg_repeatable e expected a) fun _ _ => rfl

theorem typeComplaints_carries (hx : t.returnExtensions = .empty) (he : e.WidensTo e')
    (s : Signature) (callee : Callee) (index : Nat) (args : List Arg)
    (hn : ∀ arg ∈ args, arg.value.Everywhere e.LeavesArithmetic) :
    Carries t NoMore (t.typeComplaints e s callee index args)
      (t.typeComplaints e' s callee index args) := by
  induction args generalizing index with
  | nil => exact .pure id
  | cons arg rest ih =>
    have hgiven := arg.value.infer_widens hx he (hn arg List.mem_cons_self)
    have hothers := ih (index + 1) fun a ha => hn a (List.mem_cons_of_mem _ ha)
    unfold typeComplaints
    split
    · exact .pure id
    · split
      · refine hgiven.bind (fun a => ?_) (fun a => ?_) fun a a' hwider => ?_
        · exact (t.acceptsArg_repeatable e _ a).bind fun _ => hothers.left.bind fun _ => .pure _
        · exact (t.acceptsArg_repeatable e' _ a).bind fun _ => hothers.right.bind fun _ => .pure _
        · refine (acceptsArg_carries he _ hwider).bind (fun fits => ?_) (fun fits => ?_) ?_
          · exact hothers.left.bind fun _ => .pure _
          · exact hothers.right.bind fun _ => .pure _
          · intro fits fits' hfits
            refine hothers.bind (fun _ => .pure _) (fun _ => .pure _) ?_
            intro others others' hmore
            refine .pure ?_
            intro hnone
            cases fits with
            | false => cases hnone
            | true =>
              rw [hfits rfl]
              exact hmore hnone
      · exact .pure id

theorem argComplaints_carries (hx : t.returnExtensions = .empty) (he : e.WidensTo e')
    (settings : Settings) (s : Signature) (args : List Arg) (callee : Callee)
    (hn : ∀ arg ∈ args, arg.value.Everywhere e.LeavesArithmetic) :
    Carries t NoMore (t.argComplaints e settings s args callee)
      (t.argComplaints e' settings s args callee) := by
  unfold argComplaints
  split
  · exact .pure id
  · split
    · exact typeComplaints_carries hx he s callee 0 args hn
    · exact .pure id

/-- Complaints about the arguments, and those that do not depend on the environment. -/
theorem argComplaints_append_carries (hx : t.returnExtensions = .empty) (he : e.WidensTo e')
    (settings : Settings) (s : Signature) (args : List Arg) (callee : Callee)
    (hn : ∀ arg ∈ args, arg.value.Everywhere e.LeavesArithmetic) (others : List Complaint) :
    Carries t NoMore
      (do return (← t.argComplaints e settings s args callee) ++ others)
      (do return (← t.argComplaints e' settings s args callee) ++ others) := by
  refine (argComplaints_carries hx he settings s args callee hn).bind (fun _ => .pure _)
    (fun _ => .pure _) fun complaints complaints' hmore => .pure ?_
  intro hnone
  obtain ⟨hargs, hothers⟩ := List.append_eq_nil_iff.mp hnone
  rw [hmore hargs, hothers, List.append_nil]

/-! ### Methods -/

theorem canUse_of_widensTo (he : e.WidensTo e') (m : Membership) :
    t.canUse e' m = t.canUse e m := by
  unfold canUse
  rw [he.inBoundClosure, he.className]

theorem methodComplaints_carries (hx : t.returnExtensions = .empty) (he : e.WidensTo e')
    (settings : Settings) (c : ClassInfo) (name : String) (args : List Arg)
    (hn : ∀ arg ∈ args, arg.value.Everywhere e.LeavesArithmetic) :
    Carries t NoMore (t.methodComplaints e settings c name args)
      (t.methodComplaints e' settings c name args) := by
  unfold methodComplaints
  split
  · rename_i m _
    rw [canUse_of_widensTo he]
    refine .bind_same (t.canUse_repeatable e m.toMembership) fun usable => ?_
    split
    · exact .pure id
    · exact argComplaints_append_carries hx he settings _ args _ hn _
  · exact .self ((t.missingMethod_repeatable c name _).bind fun complaint => .pure [complaint])
      fun _ => id

/-- A receiver of which less is known is passed over, or looked at in the same class. -/
theorem receiverFindings_carries (hx : t.returnExtensions = .empty) (he : e.WidensTo e')
    (settings : Settings) {a a' : PhpType} (h : a.WidensTo a') (name : String) (args : List Arg)
    (hn : ∀ arg ∈ args, arg.value.Everywhere e.LeavesArithmetic) :
    Carries t NoMore (t.receiverFindings e settings a name args)
      (t.receiverFindings e' settings a' name args) := by
  rcases h with h | h
  · unfold receiverFindings
    rw [PhpType.className?_congr h]
    split
    · refine .bind_same (t.classInfo?_repeatable _) fun c => ?_
      cases c with
      | none => exact .pure id
      | some c => exact (methodComplaints_carries hx he settings c name args hn).findings
    · exact .pure id
  · have hnone : t.receiverFindings e' settings a' name args = pure [] := by
      simp [receiverFindings, PhpType.className?, h]
    rw [hnone]
    exact .skip (t.receiverFindings_repeatable e settings a name args) fun _ _ => rfl

theorem staticMethodComplaints_carries (hx : t.returnExtensions = .empty) (he : e.WidensTo e')
    (settings : Settings) (current : ClassInfo) (currentName className name : String)
    (args : List Arg) (hn : ∀ arg ∈ args, arg.value.Everywhere e.LeavesArithmetic) :
    Carries t NoMore
      (t.staticMethodComplaints e settings current currentName className name args)
      (t.staticMethodComplaints e' settings current currentName className name args) := by
  unfold staticMethodComplaints
  refine .bind_same (t.classInfo?_repeatable className) fun target => ?_
  cases target with
  | none => exact .pure id
  | some target =>
    dsimp only
    split
    · split
      · exact .pure id
      · split
        · exact .pure id
        · exact argComplaints_append_carries hx he settings _ args _ hn _
    · exact .pure id

theorem parentCallComplaints_carries (hx : t.returnExtensions = .empty) (he : e.WidensTo e')
    (settings : Settings) (parent name : String) (args : List Arg)
    (hn : ∀ arg ∈ args, arg.value.Everywhere e.LeavesArithmetic) :
    Carries t NoMore (t.parentCallComplaints e settings parent name args)
      (t.parentCallComplaints e' settings parent name args) := by
  unfold parentCallComplaints
  split
  · exact .pure id
  · refine .bind_same (t.classInfo_repeatable parent) fun c => ?_
    split
    · exact argComplaints_carries hx he settings _ args _ hn
    · exact .pure id

theorem staticCallComplaints_carries (hx : t.returnExtensions = .empty) (he : e.WidensTo e')
    (settings : Settings) (currentName written name : String) (args : List Arg)
    (hn : ∀ arg ∈ args, arg.value.Everywhere e.LeavesArithmetic) :
    Carries t NoMore (t.staticCallComplaints e settings currentName written name args)
      (t.staticCallComplaints e' settings currentName written name args) := by
  unfold staticCallComplaints
  rw [he.functionName]
  refine .bind_same (t.classInfo?_repeatable currentName) fun current => ?_
  cases current with
  | none => exact .pure id
  | some current =>
    dsimp only
    split
    · exact staticMethodComplaints_carries hx he settings current _ _ name args hn
    · exact staticMethodComplaints_carries hx he settings current _ _ name args hn
    · split
      · split
        · exact parentCallComplaints_carries hx he settings _ name args hn
        · exact staticMethodComplaints_carries hx he settings current _ _ name args hn
      · exact .pure id
    · exact staticMethodComplaints_carries hx he settings current _ _ name args hn

/-! ### Instantiations and static properties -/

theorem instantiationComplaints_carries (hx : t.returnExtensions = .empty) (he : e.WidensTo e')
    (settings : Settings) (className : String) (args : List Arg)
    (hn : ∀ arg ∈ args, arg.value.Everywhere e.LeavesArithmetic) :
    Carries t NoMore (t.instantiationComplaints e settings className args)
      (t.instantiationComplaints e' settings className args) := by
  unfold instantiationComplaints
  refine .bind_same (t.classInfo?_repeatable className) fun c => ?_
  cases c with
  | none => exact .pure id
  | some c =>
    dsimp only
    split
    · exact .pure id
    · split
      · exact .pure id
      · split
        · exact argComplaints_carries hx he settings _ args _ hn
        · exact .pure id

end SymbolTable

/-! ### The rules -/

theorem methodCallFindings_carries (hx : t.returnExtensions = .empty) (he : e.WidensTo e')
    (settings : Settings) {node : Node} (hn : node.Everywhere e.LeavesArithmetic) :
    Carries t NoMore (methodCallFindings settings t e node)
      (methodCallFindings settings t e' node) := by
  unfold methodCallFindings
  split
  · rename_i span receiver name args
    have hreceiver := receiver.infer_widens hx he (hn.expr.child (by simp [Expr.children]))
    rw [he.inBoundClosure]
    split
    · exact .pure id
    · refine hreceiver.bind (fun a => ?_) (fun a => ?_) fun a a' hwider => ?_
      · exact t.receiverFindings_repeatable e settings a name args
      · exact t.receiverFindings_repeatable e' settings a name args
      · exact SymbolTable.receiverFindings_carries hx he settings hwider name args hn.arg
  · exact .pure id

theorem staticCallFindings_carries (hx : t.returnExtensions = .empty) (he : e.WidensTo e')
    (settings : Settings) {node : Node} (hn : node.Everywhere e.LeavesArithmetic) :
    Carries t NoMore (staticCallFindings settings t e node)
      (staticCallFindings settings t e' node) := by
  unfold staticCallFindings
  split
  · rw [he.className]
    split
    · exact (SymbolTable.staticCallComplaints_carries hx he settings _ _ _ _ hn.arg).findings
    · exact .pure id
  · exact .pure id

theorem instantiationFindings_carries (hx : t.returnExtensions = .empty) (he : e.WidensTo e')
    (settings : Settings) {node : Node} (hn : node.Everywhere e.LeavesArithmetic) :
    Carries t NoMore (instantiationFindings settings t e node)
      (instantiationFindings settings t e' node) := by
  unfold instantiationFindings
  split
  · have hnamed : ∀ written, t.instantiated? e' written = t.instantiated? e written := by
      intro written
      unfold SymbolTable.instantiated?
      rw [he.className]
    rw [hnamed]
    refine .bind_same (t.instantiated?_repeatable e _) fun className => ?_
    cases className with
    | none => exact .pure id
    | some className =>
      exact (SymbolTable.instantiationComplaints_carries hx he settings className _ hn.arg).findings
  · exact .pure id

theorem staticPropertyFindings_of_widensTo (he : e.WidensTo e') (node : Node) :
    staticPropertyFindings t e' node = staticPropertyFindings t e node := by
  unfold staticPropertyFindings SymbolTable.propertyOwner SymbolTable.staticPropertyComplaints
    Env.isNarrowed
  simp only [he.className, he.functionName, he.narrowing?, SymbolTable.canUse_of_widensTo he]

theorem methodHintFindings_of_widensTo (he : e.WidensTo e') (node : Node) :
    methodHintFindings t e' node = methodHintFindings t e node := by
  unfold methodHintFindings
  rw [he.className, he.anonymousClass]

/-- **The default rules complain less where less is known.** -/
theorem RuleSet.defaults_carries (hx : t.returnExtensions = .empty) (he : e.WidensTo e')
    {settings : Settings} {r : Rule} (hr : r ∈ RuleSet.defaults settings) {node : Node}
    (hn : node.Everywhere e.LeavesArithmetic) :
    Carries t NoMore (r.check t e node) (r.check t e' node) := by
  have hrepeatable := RuleSet.defaults_repeatable t e hr node
  simp only [RuleSet.defaults, List.mem_cons, List.not_mem_nil, or_false] at hr
  rcases hr with rfl | rfl | rfl | rfl | rfl | rfl
  · exact methodCallFindings_carries hx he settings hn
  · exact staticCallFindings_carries hx he settings hn
  · exact instantiationFindings_carries hx he settings hn
  · dsimp only
    rw [staticPropertyFindings_of_widensTo he]
    exact .self hrepeatable fun _ => id
  · dsimp only
    rw [methodHintFindings_of_widensTo he]
    exact .self hrepeatable fun _ => id
  · exact .self hrepeatable fun _ => id

/-! ### Where branches meet -/

/-- **To join branches makes no new diagnostics.**  Without extensions for calls, and if no
    arithmetic in a node is narrowed: a rule that had nothing to say about the node in an
    environment has nothing to say in the join with any other one.  The two questions come in
    either order, one at a later time than the other, so that both meet the same classes, or,
    where all declared functions exist, in one session with it; if all extensions are settled too,
    they come at any times. -/
theorem RuleSet.silent_of_intersect {m m' : Memory} (hx : t.returnExtensions = .empty)
    (hm : t.Arises m) (hm' : t.Arises m') (other : Env) {settings : Settings} {r : Rule}
    (hr : r ∈ RuleSet.defaults settings) {node : Node} (hn : node.Everywhere e.LeavesArithmetic)
    (hasked : t.Comparable (r.check t e node) m (r.check t (e.intersect other) node) m')
    (h : ((r.check t e node).runFrom m).1 = .ok []) :
    ((r.check t (e.intersect other) node).runFrom m').1 = .ok [] := by
  have hcarries := RuleSet.defaults_carries hx (e.widensTo_intersect other) hr hn
  obtain ⟨findings, hfindings, hmore⟩ :=
    hcarries.succeeds_of_comparable hm.atRest hm'.atRest hasked h
  rw [hfindings, hmore rfl]

namespace Kennel

/-- Where what was a dog is a snake. -/
def pit : Env := { yard with bindings := .ofList [("dog", .object "Snake")] }

/-- A call on the dog is looked at in the yard, and not where it may be the snake, also if one asks
    there first. -/
theorem silent_behind_pit :
    ∃ m, ((methodCallFindings {} cloneable (yard.intersect pit) (call "dog" "name")).runFrom {}).2
          = m ∧
      ((methodCallFindings {} cloneable yard (call "dog" "name")).runFrom m).1 = .ok [] ∧
      ((methodCallFindings {} cloneable pit (call "dog" "name")).runFrom {}).1
        = .error (.circularHierarchy "Snake") ∧
      ((methodCallFindings {} cloneable (yard.intersect pit) (call "dog" "name")).runFrom {}).1
        = .ok [] := by
  have hnone : (call "dog" "name").Everywhere yard.LeavesArithmetic := fun _ _ _ _ _ => rfl
  have hrule : (⟨.methodCall, methodCallFindings {}⟩ : Rule) ∈ RuleSet.defaults {} := by
    simp [RuleSet.defaults]
  have hrun : ((methodCallFindings {} cloneable yard (call "dog" "name")).runFrom
      ((methodCallFindings {} cloneable (yard.intersect pit) (call "dog" "name")).runFrom {}).2).1
        = .ok [] := rfl
  have hm := SymbolTable.Arises.start.after (t := cloneable)
    (.check _ {} hrule (yard.intersect pit) (call "dog" "name"))
  refine ⟨_, rfl, hrun, rfl, ?_⟩
  exact RuleSet.silent_of_intersect rfl hm .start pit hrule hnone (.before (.refl _)) hrun

end Kennel

end PhpCheck
