/-
  PhpCheck/Proofs/Rules/Dispatch.lean
  ===================================
  **Dispatch to rules** — a set of rules does what the list of its registrations
  does.

  Registrations may come in any order, for any kinds and several times for one.
  The set keeps the rules of each kind apart, and those of one kind are what is
  left of the list if the rules of other kinds are taken out (`rulesFor_registerAll`).
  To process a node is to ask these rules one after the other and to put together
  what they find (`process_eq`); a rule that fails has found nothing.

  A rule that failed may still have made the table remember something.  The rules
  behind it start from there, so without it they do the same only if they cannot
  see what is remembered.  They cannot as long as they do nothing but ask
  (`Inquires`), for the answers of a table do not show its memory.
-/
import PhpCheck.Proofs.Analysis.Order

namespace PhpCheck

open Analysis

/-! ### Registrations -/

namespace RuleSet

/-- One more rule is one more for its kind, and none more for the others. -/
theorem foldl_count_register (s : RuleSet) (r : Rule) (kinds : List NodeKind) (n : Nat) :
    kinds.foldl (fun n kind => n + (s.register r).count kind) n
      = kinds.foldl (fun n kind => n + s.count kind) (n + kinds.count r.kind) := by
  induction kinds generalizing n with
  | nil => rfl
  | cons kind rest ih =>
    have hcount : n + (s.register r).count kind + rest.count r.kind
        = n + (kind :: rest).count r.kind + s.count kind := by
      rw [List.count_cons]
      by_cases h : kind = r.kind
      · simp [count, rulesFor_register, h]
        omega
      · simp [count, rulesFor_register, h]
        omega
    rw [List.foldl_cons, ih, hcount, List.foldl_cons]

theorem size_registerAll (s : RuleSet) (rs : List Rule) :
    (s.registerAll rs).size = NodeKind.all.foldl (fun n kind => n + s.count kind) rs.length := by
  induction rs generalizing s with
  | nil => rfl
  | cons r rest ih =>
    have honce : NodeKind.all.count r.kind = 1 := by cases r.kind <;> rfl
    have hstep : s.registerAll (r :: rest) = (s.register r).registerAll rest := rfl
    rw [hstep, ih, foldl_count_register, honce, List.length_cons]

end RuleSet

/-! ### Asking the rules -/

/-- What rules find at a node when one is asked after the other, each from what the ones before it
    remembered, and what is remembered in the end. -/
def Rule.askAll (t : SymbolTable) (e : Env) (node : Node) :
    List Rule → Memory → List (Except Failure (List Finding)) × Memory
  | [], m => ([], m)
  | r :: rest, m =>
    let (found, m) := (r.check t e node).runFrom m
    let (others, m) := askAll t e node rest m
    (found :: others, m)

/-- A finding is reported for the file, with its own line or else the first one of the node, and
    line zero is none.  A failure is not reported. -/
def Node.reported (node : Node) (e : Env) : Except Failure (List Finding) → List Diagnostic
  | .ok findings => findings.map fun f =>
      { file := e.file, message := f.complaint.message,
        line := f.line.or (if node.span.startLine = 0 then none else some node.span.startLine) }
  | .error _ => []

section Processing

variable {t : SymbolTable} {e : Env} {node : Node}

theorem Finding.diagnostic_eq (f : Finding) (file : String) (node : Node) :
    f.diagnostic file node =
      ⟨file, f.complaint.message,
        f.line.or (if node.span.startLine = 0 then none else some node.span.startLine)⟩ := by
  unfold Finding.diagnostic Span.line?
  by_cases h : node.span.startLine = 0
  · simp [h]
  · simp [h, Nat.pos_of_ne_zero h]

theorem Rule.run_diagnostics (r : Rule) (m : Memory) :
    (r.diagnostics t e node).run m
      = (node.reported e ((r.check t e node).runFrom m).1, ((r.check t e node).runFrom m).2) := by
  have hrun : (r.diagnostics t e node).run m =
      match (r.check t e node).runFrom m with
      | (.ok findings, n) => (findings.map (·.diagnostic e.file node), n)
      | (.error _, n) => ([], n) := by
    unfold Rule.diagnostics
    rw [StateT.run_bind]
    change (match (r.check t e node).run.run m with | _ => _) = _
    rw [runFrom]
    rcases (r.check t e node).run.run m with ⟨_ | _, n⟩ <;> rfl
  rw [hrun]
  rcases (r.check t e node).runFrom m with ⟨cause | findings, n⟩
  · rfl
  · simp only [Node.reported, Finding.diagnostic_eq]

namespace Rule

theorem run_mapM_diagnostics (rs : List Rule) (m : Memory) :
    (rs.mapM fun r : Rule => r.diagnostics t e node).run m
      = ((askAll t e node rs m).1.map (node.reported e), (askAll t e node rs m).2) := by
  induction rs generalizing m with
  | nil => rfl
  | cons r rest ih =>
    have hstep : ((r :: rest).mapM fun r : Rule => r.diagnostics t e node).run m =
        ((rest.mapM fun r : Rule => r.diagnostics t e node).run
          ((r.diagnostics t e node).run m).2).map (((r.diagnostics t e node).run m).1 :: ·) id := by
      rw [List.mapM_cons]
      rfl
    simp only [hstep, run_diagnostics, ih]
    rfl

theorem askAll_append (before after : List Rule) (m : Memory) :
    askAll t e node (before ++ after) m =
      ((askAll t e node before m).1
          ++ (askAll t e node after (askAll t e node before m).2).1,
        (askAll t e node after (askAll t e node before m).2).2) := by
  induction before generalizing m with
  | nil => rfl
  | cons r rest ih => simp only [List.cons_append, askAll, ih]

end Rule

/-- To process a node is to ask the rules of its kind, one after the other. -/
theorem RuleSet.process_eq (s : RuleSet) (m : Memory) :
    (s.process t e node).run m =
      ((Rule.askAll t e node (s.rulesFor node.kind) m).1.flatMap (node.reported e),
        (Rule.askAll t e node (s.rulesFor node.kind) m).2) := by
  have hstep : (s.process t e node).run m =
      let (made, n) := ((s.rulesFor node.kind).mapM fun r : Rule => r.diagnostics t e node).run m
      (made.flatten, n) := rfl
  rw [hstep, Rule.run_mapM_diagnostics, List.flatMap_def]

end Processing

/-! ### Rules that only ask -/

/-- What a rule may do: ask the table for symbols, for types and for the use of members, have a node
    looked at by a default rule, and go on by what comes of it, also if it is a failure. -/
inductive Inquires (t : SymbolTable) : {α : Type} → Analysis α → Prop where
  | answer {α : Type} (a : α) : Inquires t (pure a)
  | fail {α : Type} (cause : Failure) : Inquires t (throw cause : Analysis α)
  | next {α β : Type} {x : Analysis α} {f : α → Analysis β} :
      Inquires t x → (∀ a, Inquires t (f a)) → Inquires t (x >>= f)
  | attempt {α : Type} {x : Analysis α} : Inquires t x → Inquires t x.attempt
  | hasClass (name : String) : Inquires t (t.hasClass name)
  | classInfo (name : String) : Inquires t (t.classInfo name)
  | hasFunction (name : String) : Inquires t (t.hasFunction name)
  | functionInfo (name : String) : Inquires t (t.functionInfo name)
  | returnExtensions (className : String) : Inquires t (t.returnExtensionsFor className)
  | infer (e : Env) (x : Expr) : Inquires t (x.infer t e)
  | use (e : Env) (m : Membership) : Inquires t (t.canUse e m)
  | rule {settings : Settings} {r : Rule} (hr : r ∈ RuleSet.defaults settings) (e : Env)
      (node : Node) : Inquires t (r.check t e node)

section Inquiring

variable {t : SymbolTable} {p : Program} {e : Env} {node : Node}

/-- Whoever only asks does not see the memory, by induction on what is asked. -/
theorem Inquires.transparent (hp : t.source = p.source) {α : Type} {x : Analysis α}
    (h : Inquires t x) : Transparent t x := by
  have hk : t.source.KnowsFunctions := hp ▸ p.knowsFunctions
  induction h with
  | answer a => exact .pure a
  | fail cause => exact (Repeatable.throw cause).transparent hk
  | next _ _ ihx ihf => exact ihx.bind ihf
  | attempt _ ih =>
    refine ⟨ih.steady, ?_⟩
    intro hs m m' hm hm'
    rw [runFrom_attempt, runFrom_attempt, ih.same hs hm hm']
  | hasClass name => exact t.hasClass_transparent name
  | classInfo name => exact t.classInfo_transparent name
  | hasFunction name => exact t.hasFunction_transparent name hk
  | functionInfo name => exact t.functionInfo_transparent name
  | returnExtensions className => exact t.returnExtensionsFor_transparent className
  | infer e x => exact (x.infer_repeatable t e).transparent hk
  | use e m => exact (t.canUse_repeatable e m).transparent hk
  | rule hr e node => exact (RuleSet.defaults_repeatable t e hr node).transparent hk

/-- Rules that only ask find what each of them finds alone. -/
theorem Rule.askAll_of_inquires (hp : t.source = p.source) (hs : t.Settled) {rs : List Rule}
    (h : ∀ r ∈ rs, Inquires t (r.check t e node)) {m : Memory} (hm : AtRest t m) :
    (askAll t e node rs m).1 = (rs.map fun r => ((r.check t e node).runFrom {}).1) ∧
      AtRest t (askAll t e node rs m).2 := by
  induction rs generalizing m with
  | nil => exact ⟨rfl, hm⟩
  | cons r rest ih =>
    have hr : Transparent t (r.check t e node) := (h r List.mem_cons_self).transparent hp
    obtain ⟨hfound, hrest⟩ :=
      ih (fun r' hr' => h r' (List.mem_cons_of_mem _ hr')) (hr.steady.atRest hm)
    refine ⟨?_, hrest⟩
    simp only [askAll, List.map_cons]
    rw [hfound, hr.same hs hm .start]

/-- The rules that look at a node, of those that were registered. -/
def Rule.asked (node : Node) (rs : List Rule) : List Rule := rs.filter (node.kind = ·.kind)

theorem Rule.asked_append (before after : List Rule) :
    asked node (before ++ after) = asked node before ++ asked node after :=
  List.filter_append _ _

theorem Rule.asked_append_cons (before after : List Rule) (r : Rule) :
    asked node (before ++ r :: after)
      = asked node before ++ (if node.kind = r.kind then [r] else []) ++ asked node after := by
  by_cases h : node.kind = r.kind <;> simp [asked, h]

namespace RuleSet

/-- What comes of a node, and what is remembered, if these rules were registered. -/
def processWith (rs : List Rule) (t : SymbolTable) (e : Env) (node : Node) (m : Memory) :
    List Diagnostic × Memory :=
  ((empty.registerAll rs).process t e node).run m

theorem processWith_eq (rs : List Rule) (m : Memory) :
    processWith rs t e node m =
      ((Rule.askAll t e node (Rule.asked node rs) m).1.flatMap (node.reported e),
        (Rule.askAll t e node (Rule.asked node rs) m).2) := by
  have hrules : (empty.registerAll rs).rulesFor node.kind = Rule.asked node rs :=
    rulesFor_registerAll empty rs node.kind
  rw [processWith, process_eq, hrules]

theorem processWith_of_inquires (hp : t.source = p.source) (hs : t.Settled) {rs : List Rule}
    (h : ∀ r ∈ rs, Inquires t (r.check t e node)) {m : Memory} (hm : AtRest t m) :
    (processWith rs t e node m).1 = ((Rule.asked node rs).flatMap fun r =>
        node.reported e ((r.check t e node).runFrom {}).1) ∧
      AtRest t (processWith rs t e node m).2 := by
  have hasked : ∀ r ∈ Rule.asked node rs, Inquires t (r.check t e node) := fun r hr =>
    h r (List.mem_of_mem_filter hr)
  obtain ⟨hfound, hrest⟩ := Rule.askAll_of_inquires hp hs hasked hm
  rw [processWith_eq]
  refine ⟨?_, hrest⟩
  rw [hfound, List.flatMap_map]

/-- Rules that were registered later start from what the earlier ones remembered. -/
theorem processWith_append (before after : List Rule) (m : Memory) :
    processWith (before ++ after) t e node m =
      ((processWith before t e node m).1
          ++ (processWith after t e node (processWith before t e node m).2).1,
        (processWith after t e node (processWith before t e node m).2).2) := by
  simp only [processWith_eq, Rule.asked_append, Rule.askAll_append, List.flatMap_append]

/-- A rule that fails adds nothing; the rules behind it start from what it leaves. -/
theorem processWith_cons_of_failing {r : Rule} {cause : Failure} {m n : Memory}
    (after : List Rule) (h : (r.check t e node).runFrom m = (.error cause, n)) :
    processWith (r :: after) t e node m
      = processWith after t e node (if node.kind = r.kind then n else m) := by
  have hnothing : node.reported e (.error cause) = [] := rfl
  simp only [processWith_eq, Rule.asked, List.filter_cons, decide_eq_true_eq]
  split
  · simp only [Rule.askAll, h, List.flatMap_cons, hnothing, List.nil_append]
  · rfl

/-- **Dispatch is a flat list.**  Whatever rules were registered, for whatever kinds and in whatever
    order, a node is shown to those of its kind, in the order of their registration, and what they
    find is reported in this order.  A rule that fails adds nothing: what is reported is what the
    rules before it report, and what those behind it do from what it leaves.

    Had a failing rule not been registered, everything would be as it is if the rule leaves the
    memory alone, and the diagnostics would be in any case if the rules only ask: then each rule
    finds what it would find by itself. -/
theorem process_registerAll (rs : List Rule) (t : SymbolTable) (e : Env) (node : Node)
    (m : Memory) :
    (empty.registerAll rs).size = rs.length ∧
    processWith rs t e node m =
      ((Rule.askAll t e node (Rule.asked node rs) m).1.flatMap (node.reported e),
        (Rule.askAll t e node (Rule.asked node rs) m).2) ∧
    (∀ (before after : List Rule) (r : Rule) (cause : Failure) (n : Memory),
      rs = before ++ r :: after →
      (r.check t e node).runFrom (processWith before t e node m).2 = (.error cause, n) →
        let left := if node.kind = r.kind then n else (processWith before t e node m).2
        processWith rs t e node m =
          ((processWith before t e node m).1 ++ (processWith after t e node left).1,
            (processWith after t e node left).2) ∧
        (left = (processWith before t e node m).2 →
          processWith (before ++ after) t e node m = processWith rs t e node m)) ∧
    ∀ p : Program, t.source = p.source → t.Settled → AtRest t m →
      (∀ r ∈ rs, Inquires t (r.check t e node)) →
      (processWith rs t e node m).1 = ((Rule.asked node rs).flatMap fun r =>
        node.reported e ((r.check t e node).runFrom {}).1) ∧
      AtRest t (processWith rs t e node m).2 ∧
      ∀ (before after : List Rule) (r : Rule) (cause : Failure), rs = before ++ r :: after →
        ((r.check t e node).runFrom (processWith before t e node m).2).1 = .error cause →
          (processWith (before ++ after) t e node m).1 = (processWith rs t e node m).1 := by
  refine ⟨size_registerAll empty rs, processWith_eq rs m, ?_, ?_⟩
  · rintro before after r cause n rfl hfails left
    have hbehind : processWith (r :: after) t e node (processWith before t e node m).2
        = processWith after t e node left := processWith_cons_of_failing after hfails
    rw [processWith_append before (r :: after), hbehind]
    refine ⟨rfl, ?_⟩
    intro hleft
    rw [processWith_append before after, hleft]
  · intro p hp hs hm h
    obtain ⟨hshares, hrest⟩ := processWith_of_inquires hp hs h hm
    refine ⟨hshares, hrest, ?_⟩
    rintro before after r cause rfl hfails
    have hbefore := (processWith_of_inquires hp hs
      (fun r' hr' => h r' (List.mem_append_left _ hr')) hm).2
    have hr : Transparent t (r.check t e node) :=
      (h r (List.mem_append_right _ List.mem_cons_self)).transparent hp
    -- The rule fails by itself as well.
    have halone : ((r.check t e node).runFrom {}).1 = .error cause :=
      (hr.same hs .start hbefore).trans hfails
    have hothers : ∀ r' ∈ before ++ after, Inquires t (r'.check t e node) := by
      intro r' hr'
      refine h r' ?_
      rcases List.mem_append.mp hr' with hr' | hr'
      · exact List.mem_append_left _ hr'
      · exact List.mem_append_right _ (List.mem_cons_of_mem _ hr')
    have hnothing : ((if node.kind = r.kind then [r] else []).flatMap fun r' =>
        node.reported e ((r'.check t e node).runFrom {}).1) = [] := by
      split
      · rw [List.flatMap_singleton, halone, Node.reported]
      · rfl
    rw [hshares, (processWith_of_inquires hp hs hothers hm).1, Rule.asked_append,
      Rule.asked_append_cons, List.flatMap_append, List.flatMap_append, List.flatMap_append,
      hnothing, List.append_nil]

end RuleSet

end Inquiring

/-! ### A watch over the kennel -/

namespace Kennel

def praise (kind : NodeKind) (line : Option Nat) : Rule :=
  ⟨kind, fun _ _ _ => return [⟨.custom "Good dog.", line⟩]⟩

def refusal : Rule := ⟨.methodCall, fun _ _ _ => throw (.classNotFound "Cat")⟩

/-- Looks the snake up, which cannot be found. -/
def charm : Rule :=
  ⟨.methodCall, fun t _ _ => do
    let snake ← t.classInfo "Snake"
    return [⟨.custom (snake.name ++ " dances."), none⟩]⟩

def watch : List Rule :=
  [praise .new none, praise .methodCall (some 3), refusal, charm] ++ RuleSet.defaults {}
    ++ [praise .methodCall none]

theorem watch_inquires (e : Env) (node : Node) :
    ∀ r ∈ watch, Inquires cloneable (r.check cloneable e node) := by
  intro r hr
  simp only [watch, List.mem_append, List.mem_cons, List.not_mem_nil, or_false] at hr
  rcases hr with ((rfl | rfl | rfl | rfl) | hdefault) | rfl
  · exact .answer _
  · exact .answer _
  · exact .fail _
  · exact .next (.classInfo "Snake") fun _ => .answer _
  · exact .rule hdefault e node
  · exact .answer _

/-- A dog that barks is praised on the third line and on its own; what the watch refuses to say and
    what it would say of a snake makes no difference. -/
theorem watched :
    let bark := call "dog" "bark"
    let said (rs : List Rule) := (RuleSet.processWith rs cloneable yard bark {}).1
    cloneable.source = kennel.source ∧ cloneable.Settled ∧ AtRest cloneable {} ∧
      (RuleSet.empty.registerAll watch).size = 11 ∧
      said watch = [⟨"kennel.php", "Good dog.", some 3⟩,
        ⟨"kennel.php", "Call to an undefined method Dog::bark().", some 7⟩,
        ⟨"kennel.php", "Good dog.", some 7⟩] ∧
      said ([praise .new none, praise .methodCall (some 3)] ++ charm :: RuleSet.defaults {}
        ++ [praise .methodCall none]) = said watch ∧
      said ([praise .new none, praise .methodCall (some 3), refusal] ++ RuleSet.defaults {}
        ++ [praise .methodCall none]) = said watch := by
  intro bark said
  obtain ⟨hsize, -, hremoving, hasking⟩ := RuleSet.process_registerAll watch cloneable yard bark {}
  obtain ⟨-, -, hfailing⟩ :=
    hasking kennel rfl cloneable_settled .start (watch_inquires yard bark)
  have hrefusal := (hremoving [praise .new none, praise .methodCall (some 3)]
    (charm :: RuleSet.defaults {} ++ [praise .methodCall none]) refusal _ _ rfl rfl).2 rfl
  have hcharm := hfailing [praise .new none, praise .methodCall (some 3), refusal]
    (RuleSet.defaults {} ++ [praise .methodCall none]) charm _ rfl rfl
  exact ⟨rfl, cloneable_settled, .start, hsize, rfl, congrArg Prod.fst hrefusal, hcharm⟩

end Kennel

end PhpCheck
