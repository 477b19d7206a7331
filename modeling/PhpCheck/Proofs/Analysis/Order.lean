/-
  PhpCheck/Proofs/Analysis/Order.lean
  ===================================
  **The order of an analysis does not show** — the diagnostics about a node are
  the same whichever nodes were looked at before.

  A rule that fails makes no diagnostics, and what it looked up stays
  remembered.  So an analysis of many nodes is a run that cannot fail, of steps
  that may have failed (`process_repeatable`).  Each node gets the diagnostics
  that it gets from a new symbol table, hence a different order of the nodes
  only orders the diagnostics differently.
-/
import PhpCheck.Proofs.Analysis.Rules

namespace PhpCheck

open Analysis

/-! ### Steps that cannot fail -/

/-- A step that cannot fail, as a step of an analysis. -/
def Analysis.surely {α : Type} (y : StateM Memory α) : Analysis α := ExceptT.lift y

namespace Analysis

variable {α β : Type}

theorem runFrom_surely (y : StateM Memory α) (m : Memory) :
    (surely y).runFrom m = (.ok (y.run m).1, (y.run m).2) := rfl

theorem surely_bind (y : StateM Memory α) (g : α → StateM Memory β) :
    surely (y >>= g) = surely y >>= fun a => surely (g a) := rfl

theorem surely_mapM (f : α → StateM Memory β) (as : List α) :
    surely (as.mapM f) = as.mapM fun a => surely (f a) := by
  induction as with
  | nil => rfl
  | cons a rest ih =>
    rw [List.mapM_cons, List.mapM_cons, ← ih]
    rfl

end Analysis

/-! ### Nodes -/

namespace RuleSet

/-- The set of the default rules. -/
def ofDefaults (settings : Settings) : RuleSet := empty.registerAll (defaults settings)

theorem rulesFor_register (s : RuleSet) (r : Rule) (kind : NodeKind) :
    (s.register r).rulesFor kind = s.rulesFor kind ++ if kind = r.kind then [r] else [] := by
  unfold register
  split <;> simp [*]

/-- The rules of one kind are the registered ones of this kind, in the order of the list. -/
theorem rulesFor_registerAll (s : RuleSet) (rs : List Rule) (kind : NodeKind) :
    (s.registerAll rs).rulesFor kind = s.rulesFor kind ++ rs.filter (kind = ·.kind) := by
  induction rs generalizing s with
  | nil => simp [registerAll]
  | cons r rest ih =>
    have hstep : s.registerAll (r :: rest) = (s.register r).registerAll rest := rfl
    rw [hstep, ih, rulesFor_register, List.append_assoc, List.filter_cons]
    by_cases h : kind = r.kind <;> simp [h]

theorem mem_rulesFor_registerAll {s : RuleSet} {rs : List Rule} {kind : NodeKind} {r : Rule}
    (h : r ∈ (s.registerAll rs).rulesFor kind) : r ∈ s.rulesFor kind ∨ r ∈ rs := by
  rw [rulesFor_registerAll] at h
  exact (List.mem_append.mp h).imp_right List.mem_of_mem_filter

theorem mem_defaults_of_mem_rulesFor {settings : Settings} {kind : NodeKind} {r : Rule}
    (h : r ∈ (ofDefaults settings).rulesFor kind) : r ∈ defaults settings :=
  (mem_rulesFor_registerAll h).resolve_left nofun

theorem process_repeatable (t : SymbolTable) (settings : Settings) (e : Env) (node : Node) :
    Repeatable t (surely ((ofDefaults settings).process t e node)) := by
  unfold process
  rw [surely_bind, surely_mapM]
  refine (Repeatable.mapM ?_).bind fun made => .pure made.flatten
  intro r hr
  have hcheck := defaults_repeatable t e (mem_defaults_of_mem_rulesFor hr) node
  unfold Rule.diagnostics
  rw [surely_bind]
  refine hcheck.attempt.bind fun outcome => ?_
  cases outcome <;> exact .pure _

/-- The diagnostics about several nodes, looked at one after the other. -/
def processAll (s : RuleSet) (t : SymbolTable) :
    List (Env × Node) → Memory → List (List Diagnostic) × Memory
  | [], m => ([], m)
  | (e, node) :: rest, m =>
    let (made, m) := (s.process t e node).run m
    let (others, m) := s.processAll t rest m
    (made :: others, m)

/-- The diagnostics about a node that a new table is asked for. -/
def processAlone (s : RuleSet) (t : SymbolTable) (request : Env × Node) : List Diagnostic :=
  ((s.process t request.1 request.2).run {}).1

theorem processAll_of_atRest {t : SymbolTable} (hk : t.source.KnowsFunctions) (hs : t.Settled)
    (settings : Settings) (requests : List (Env × Node)) {m : Memory} (hm : AtRest t m) :
    ((ofDefaults settings).processAll t requests m).1
        = requests.map ((ofDefaults settings).processAlone t) ∧
      AtRest t ((ofDefaults settings).processAll t requests m).2 := by
  induction requests generalizing m with
  | nil => exact ⟨rfl, hm⟩
  | cons request rest ih =>
    obtain ⟨e, node⟩ := request
    have hstep := process_repeatable t settings e node
    have hsame := (hstep.transparent hk).same hs hm .start
    rw [runFrom_surely, runFrom_surely] at hsame
    obtain ⟨hmade, hrest⟩ := ih (hstep.atRest hm)
    refine ⟨?_, hrest⟩
    simp only [processAll, List.map_cons]
    exact congrArg₂ List.cons (Except.ok.inj hsame) hmade

end RuleSet

/-! ### What arises in an analysis -/

/-- What a symbol table can be asked to do. -/
inductive Request where
  | query (q : Query)
  | infer (e : Env) (x : Expr)
  | use (e : Env) (member : Membership)
  | check (r : Rule) (settings : Settings) (h : r ∈ RuleSet.defaults settings) (e : Env)
      (node : Node)
  | process (settings : Settings) (e : Env) (node : Node)

namespace SymbolTable

/-- What is remembered after a request. -/
def after (t : SymbolTable) (m : Memory) : Request → Memory
  | .query q => ((t.ask q).runFrom m).2
  | .infer e x => ((x.infer t e).runFrom m).2
  | .use e member => ((t.canUse e member).runFrom m).2
  | .check r _ _ e node => ((r.check t e node).runFrom m).2
  | .process settings e node => (((RuleSet.ofDefaults settings).process t e node).run m).2

/-- The memories that requests of all sorts lead to. -/
inductive Arises (t : SymbolTable) : Memory → Prop where
  | start : Arises t {}
  | after {m : Memory} (request : Request) : Arises t m → Arises t (t.after m request)

variable {t : SymbolTable} {m : Memory} {p : Program}

theorem ask_orderly (t : SymbolTable) (q : Query) : Orderly t (t.ask q) := by
  cases q with
  | hasClass name => exact (t.hasClass_transparent name).orderly.bind fun a => .pure _
  | classInfo name => exact (t.classInfo_transparent name).orderly.bind fun a => .pure _
  | hasFunction name => exact (t.hasFunction_orderly name).bind fun a => .pure _
  | functionInfo name => exact (t.functionInfo_orderly name).bind fun a => .pure _
  | returnExtensions name =>
    exact (t.returnExtensionsFor_transparent name).orderly.bind fun a => .pure _

theorem atRest_after (hm : AtRest t m) (request : Request) : AtRest t (t.after m request) := by
  cases request with
  | query q => exact (t.ask_orderly q).atRest hm
  | infer e x => exact (x.infer_repeatable t e).atRest hm
  | use e member => exact (t.canUse_repeatable e member).atRest hm
  | check r settings h e node => exact (RuleSet.defaults_repeatable t e h node).atRest hm
  | process settings e node => exact (RuleSet.process_repeatable t settings e node).atRest hm

theorem Arises.atRest (h : t.Arises m) : AtRest t m := by
  induction h with
  | start => exact .start
  | after request _ ih => exact atRest_after ih request

/-- **The order of an analysis does not show.**  Of several nodes that are looked at one after the
    other, in whatever environments and after whatever else was asked, each gets the diagnostics
    that a new table has about it; so for the same nodes in another order the same diagnostics
    come in that order.  Afterwards no class is being put together, whichever rules failed. -/
theorem processAll_orderless (hp : t.source = p.source) (hs : t.Settled) (hm : t.Arises m)
    (settings : Settings) (requests : List (Env × Node)) :
    ((RuleSet.ofDefaults settings).processAll t requests m).1
        = requests.map ((RuleSet.ofDefaults settings).processAlone t) ∧
      (∀ requests' : List (Env × Node), requests'.Perm requests →
        (requests'.zip ((RuleSet.ofDefaults settings).processAll t requests' m).1).Perm
          (requests.zip ((RuleSet.ofDefaults settings).processAll t requests m).1)) ∧
      ((RuleSet.ofDefaults settings).processAll t requests m).2.building = [] := by
  have hk : t.source.KnowsFunctions := hp ▸ p.knowsFunctions
  have hall := fun rs => RuleSet.processAll_of_atRest hk hs settings rs hm.atRest
  refine ⟨(hall requests).1, ?_, (hall requests).2.idle⟩
  intro requests' hperm
  rw [(hall requests).1, (hall requests').1, ← List.map_prod_left_eq_zip,
    ← List.map_prod_left_eq_zip]
  exact hperm.map _

end SymbolTable

/-! ### The kennel -/

namespace Kennel

/-- Inside a file of the kennel, with an animal of each sort that has a problem. -/
def yard : Env :=
  { file := "kennel.php",
    bindings := .ofList [("dog", .object "Dog"), ("snake", .object "Snake")] }

/-- The call of a method on a variable. -/
def call (name method : String) : Node :=
  .expr (.methodCall (.point 7 1) (.variable {} (.literal name)) (.literal method) [])

/-- The snake fails a rule, and the complaint about the dog is the same before it and after it. -/
theorem orderless :
    cloneable.source = kennel.source ∧ cloneable.Settled ∧ cloneable.Arises {} ∧
      ((methodCallFindings {} cloneable yard (call "snake" "bite")).runFrom {}).1
        = .error (.circularHierarchy "Snake") ∧
      ((RuleSet.ofDefaults {}).processAll cloneable
          [(yard, call "snake" "bite"), (yard, call "dog" "bark")] {}).1
        = [[], [⟨"kennel.php", "Call to an undefined method Dog::bark().", some 7⟩]] ∧
      ((RuleSet.ofDefaults {}).processAll cloneable
          [(yard, call "dog" "bark"), (yard, call "snake" "bite")] {}).1
        = [(yard, call "dog" "bark"), (yard, call "snake" "bite")].map
            ((RuleSet.ofDefaults {}).processAlone cloneable) ∧
      ((RuleSet.ofDefaults {}).processAll cloneable
          [(yard, call "dog" "bark"), (yard, call "snake" "bite")] {}).2.building = [] := by
  have hall := SymbolTable.processAll_orderless (t := cloneable) rfl cloneable_settled .start {}
    [(yard, call "dog" "bark"), (yard, call "snake" "bite")]
  exact ⟨rfl, cloneable_settled, .start, rfl, rfl, hall.1, hall.2.2⟩

end Kennel

end PhpCheck
