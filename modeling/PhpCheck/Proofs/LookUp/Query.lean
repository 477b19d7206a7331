/-
  PhpCheck/Proofs/LookUp/Query.lean
  =================================
  **Memory never shows** — a symbol table answers each query as if it were the
  first one.

  A step is transparent (`Transparent`) when it has one outcome whatever is
  remembered, as long as nothing is being put together, and leaves it at that.
  Transparent steps compose, so it is enough to look at the single queries: a
  class is looked up to the first obstacle or to the class of its declaration,
  and neither depends on the memory.  `answers_eq_map_answerAlone` says the same
  of a sequence of queries.
-/
import PhpCheck.Proofs.LookUp.Outcome

namespace PhpCheck

open Analysis

/-! ### Queries -/

inductive Query where
  | hasClass (name : String)
  | classInfo (name : String)
  | hasFunction (name : String)
  | functionInfo (name : String)
  | returnExtensions (className : String)

inductive Answer where
  | known (value : Bool)
  | info (c : ClassInfo)
  | signature (f : Signature)
  | extensions (xs : List ReturnExtension)

namespace SymbolTable

def ask (t : SymbolTable) : Query → Analysis Answer
  | .hasClass name => return .known (← t.hasClass name)
  | .classInfo name => return .info (← t.classInfo name)
  | .hasFunction name => return .known (← t.hasFunction name)
  | .functionInfo name => return .signature (← t.functionInfo name)
  | .returnExtensions className => return .extensions (← t.returnExtensionsFor className)

/-- The answers to queries that are asked one after the other. -/
def answers (t : SymbolTable) : List Query → Memory → List (Except Failure Answer)
  | [], _ => []
  | q :: qs, m => ((t.ask q).runFrom m).1 :: t.answers qs ((t.ask q).runFrom m).2

/-- The answer to a query that is asked of a new table. -/
def answerAlone (t : SymbolTable) (q : Query) : Except Failure Answer := ((t.ask q).runFrom {}).1

/-- The memories that queries lead to. -/
inductive Reachable (t : SymbolTable) : Memory → Prop where
  | start : Reachable t {}
  | ask {m : Memory} (q : Query) : Reachable t m → Reachable t ((t.ask q).runFrom m).2

end SymbolTable

/-! ### Steps that keep a memory faithful -/

/-- From every faithful memory the step leads to a faithful one that has all the first one has. -/
def Steady {α : Type} (t : SymbolTable) (x : Analysis α) : Prop :=
  ∀ m, Faithful t m → Faithful t (x.runFrom m).2 ∧ Grows m (x.runFrom m).2

namespace Steady

variable {α β : Type} {t : SymbolTable} {x : Analysis α}

theorem pure (a : α) : Steady t (pure a : Analysis α) := fun m hm => ⟨hm, .refl m⟩

theorem bind {f : α → Analysis β} (hx : Steady t x) (hf : ∀ a, Steady t (f a)) :
    Steady t (x >>= f) := by
  intro m hm
  obtain ⟨hm', hg⟩ := hx m hm
  rcases hr : x.runFrom m with ⟨cause | a, m'⟩
  · rw [hr] at hm' hg
    rw [runFrom_bind_error hr]
    exact ⟨hm', hg⟩
  · rw [hr] at hm' hg
    rw [runFrom_bind_ok hr]
    obtain ⟨hm'', hg'⟩ := hf a m' hm'
    exact ⟨hm'', hg.trans hg'⟩

end Steady

/-- A faithful memory between two steps, when nothing is being put together. -/
structure AtRest (t : SymbolTable) (m : Memory) : Prop where
  faithful : Faithful t m
  idle : m.building = []

theorem AtRest.start {t : SymbolTable} : AtRest t {} := ⟨.start, rfl⟩

theorem Steady.atRest {α : Type} {t : SymbolTable} {x : Analysis α} {m : Memory}
    (hx : Steady t x) (hm : AtRest t m) : AtRest t (x.runFrom m).2 := by
  obtain ⟨hm', hg⟩ := hx m hm.faithful
  exact ⟨hm', hg.building.trans hm.idle⟩

/-- The step keeps memories faithful, and if all extensions are settled it has one outcome
    whatever is remembered. -/
structure Transparent {α : Type} (t : SymbolTable) (x : Analysis α) : Prop where
  steady : Steady t x
  same : t.Settled → ∀ {m m' : Memory}, AtRest t m → AtRest t m' →
    (x.runFrom m).1 = (x.runFrom m').1

namespace Transparent

variable {α β : Type} {t : SymbolTable} {x : Analysis α}

theorem pure (a : α) : Transparent t (pure a : Analysis α) := ⟨.pure a, fun _ _ _ _ _ => rfl⟩

theorem bind {f : α → Analysis β} (hx : Transparent t x) (hf : ∀ a, Transparent t (f a)) :
    Transparent t (x >>= f) where
  steady := hx.steady.bind fun a => (hf a).steady
  same := by
    intro hs m m' hm hm'
    have hsame := hx.same hs hm hm'
    have hrest := hx.steady.atRest hm
    have hrest' := hx.steady.atRest hm'
    rcases hr : x.runFrom m with ⟨cause | a, n⟩ <;> rcases hr' : x.runFrom m' with ⟨cause' | a', n'⟩
    · rw [hr, hr'] at hsame
      rw [runFrom_bind_error hr, runFrom_bind_error hr']
      cases hsame
      rfl
    · rw [hr, hr'] at hsame
      cases hsame
    · rw [hr, hr'] at hsame
      cases hsame
    · rw [hr, hr'] at hsame
      rw [runFrom_bind_ok hr, runFrom_bind_ok hr']
      rw [hr] at hrest
      rw [hr'] at hrest'
      cases hsame
      exact (hf a).same hs hrest hrest'

theorem of_outcome (outcome : Except Failure α) (hx : Steady t x)
    (h : ∀ m, Faithful t m → (x.runFrom m).1 = outcome) : Transparent t x where
  steady := hx
  same _ _ _ hm hm' := (h _ hm.faithful).trans (h _ hm'.faithful).symm

end Transparent

namespace Faithful

variable {t : SymbolTable} {m : Memory}

theorem addFunction (h : Faithful t m) {key : String} {decl : FunctionDecl}
    (hd : t.source.function? key = some decl) :
    Faithful t (m.addFunction key (decl.info key)) where
  assembles := h.assembles
  closed := h.closed
  apart := h.apart
  functions := by
    intro k f hf
    have hget : (m.addFunction key (decl.info key)).functions.get? k
        = if k = key then some (decl.info key) else m.functions.get? k :=
      NameMap.get?_insert _ _ _ _
    rw [hget] at hf
    split at hf
    · rename_i he
      cases hf
      exact ⟨decl, he ▸ hd, by rw [he]⟩
    · exact h.functions hf

end Faithful

/-! ### Single queries -/

namespace SymbolTable

variable (t : SymbolTable) (name : String)

/-- A remembered class exists, so the answer is that of the source. -/
theorem hasClass_answers {m : Memory} (hm : Faithful t m) :
    ((t.hasClass name).runFrom m).1 = (t.source.classExists name).mapError (.classLoading name) := by
  rw [runFrom_hasClass]
  split
  · rename_i hc
    obtain ⟨c, hc⟩ := Option.isSome_iff_exists.mp hc
    obtain ⟨exist, _⟩ := ((hm.assembles hc).grounded name .refl).1
    rw [exist]
    rfl
  · rfl

theorem hasClass_transparent : Transparent t (t.hasClass name) := by
  refine .of_outcome _ ?_ fun m hm => t.hasClass_answers name hm
  intro m hm
  rw [runFrom_hasClass]
  exact ⟨hm, .refl m⟩

theorem classInfo_transparent : Transparent t (t.classInfo name) where
  steady := by
    intro m hm
    have h := t.classInfo_finds m.building name m hm rfl
    exact ⟨h.faithful, h.grows⟩
  same := by
    intro hs m m' hm hm'
    have h := classInfo_gives name hm.faithful
    have h' := classInfo_gives name hm'.faithful
    rw [hm.idle] at h
    rw [hm'.idle] at h'
    exact h.unique (fun c d hc hd => hc.unique hs hd) h'

theorem classInfo?_transparent : Transparent t (t.classInfo? name) := by
  unfold classInfo?
  refine (t.hasClass_transparent name).bind fun known => ?_
  cases known with
  | false => exact .pure none
  | true =>
    rw [if_pos rfl, map_eq_pure_bind]
    exact (t.classInfo_transparent name).bind fun c => .pure (some c)

theorem returnExtensionsFor_transparent : Transparent t (t.returnExtensionsFor name) := by
  unfold returnExtensionsFor
  split
  · exact .pure []
  · exact (t.classInfo?_transparent name).bind fun c => .pure _

theorem hasFunction_transparent (h : ∀ key, (t.source.function? key).isSome →
    t.source.functionExists key = true) : Transparent t (t.hasFunction name) := by
  refine .of_outcome (.ok (t.source.functionExists (functionKey name))) ?_ ?_
  · intro m hm
    rw [runFrom_hasFunction]
    exact ⟨hm, .refl m⟩
  · intro m hm
    rw [runFrom_hasFunction]
    cases hf : m.functions.get? (functionKey name) with
    | none => simp [NameMap.contains, hf]
    | some f =>
      obtain ⟨decl, hd, _⟩ := hm.functions hf
      rw [h _ (by simp [hd]), Bool.or_true]

theorem functionInfo_transparent : Transparent t (t.functionInfo name) := by
  refine .of_outcome ((t.functionInfo name).runFrom {}).1 ?_ ?_
  · intro m hm
    rw [runFrom_functionInfo]
    split
    · exact ⟨hm, .refl m⟩
    · rename_i hd
      exact ⟨hm.addFunction hd, ⟨rfl, id⟩⟩
    · exact ⟨hm, .refl m⟩
  · intro m hm
    rw [runFrom_functionInfo, runFrom_functionInfo]
    cases hf : m.functions.get? (functionKey name) with
    | none => cases hd : t.source.function? (functionKey name) <;> rfl
    | some f =>
      obtain ⟨decl, hd, rfl⟩ := hm.functions hf
      rw [hd]
      rfl

/-! ### Sequences of queries -/

variable {t} {p : Program}

theorem ask_transparent (hp : t.source = p.source) (q : Query) : Transparent t (t.ask q) := by
  cases q with
  | hasClass name => exact (t.hasClass_transparent name).bind fun a => .pure _
  | classInfo name => exact (t.classInfo_transparent name).bind fun a => .pure _
  | hasFunction name =>
    have hknown : ∀ key, (t.source.function? key).isSome → t.source.functionExists key = true := by
      rw [hp]
      exact fun _ h => h
    exact (t.hasFunction_transparent name hknown).bind fun a => .pure _
  | functionInfo name => exact (t.functionInfo_transparent name).bind fun a => .pure _
  | returnExtensions name => exact (t.returnExtensionsFor_transparent name).bind fun a => .pure _

theorem Reachable.atRest (hp : t.source = p.source) {m : Memory} (h : t.Reachable m) :
    AtRest t m := by
  induction h with
  | start => exact .start
  | ask q _ ih => exact (ask_transparent hp q).steady.atRest ih

theorem answers_of_atRest (hp : t.source = p.source) (hs : t.Settled) (qs : List Query)
    {m : Memory} (hm : AtRest t m) : t.answers qs m = qs.map t.answerAlone := by
  induction qs generalizing m with
  | nil => rfl
  | cons q rest ih =>
    have hq := ask_transparent hp q
    rw [answers, List.map_cons, ih (hq.steady.atRest hm), answerAlone, hq.same hs hm .start]

/-- **Memory never shows.**  In a sequence of queries each is answered as it would be if it were
    asked alone, with the same class, function or failure. -/
theorem answers_eq_map_answerAlone (hp : t.source = p.source) (hs : t.Settled)
    (qs : List Query) : t.answers qs {} = qs.map t.answerAlone :=
  answers_of_atRest hp hs qs .start

end SymbolTable

/-! ### A kennel -/

/-- Animals of all sorts; the snake bites its own tail. -/
def kennel : Program :=
  [({ name := "Named", kind := .interface, methods := [{ name := "name" }] } : ClassDecl),
    { name := "Tagged", kind := .interface, interfaces := ["Named"],
      methods := [{ name := "age" }] },
    { name := "Feeding", kind := .trait, methods := [{ name := "feed", visibility := .family }] },
    { name := "Animal", interfaces := ["Named"], traits := ["Feeding"],
      methods := [{ name := "age", visibility := .classOnly }] },
    { name := "Dog", parent := some "Animal", interfaces := ["Tagged"] },
    { name := "Snake", parent := some "Snake" }].foldl Program.addClass {}

/-- Adds a method to each class, after looking up the class itself, which is being put together. -/
def cloning : MemberExtension MethodInfo where
  appliesTo _ := true
  members c := .consult c.name fun _ =>
    .answer [{ declaringClass := c.name, name := "clone", result := .object c.name }]

def cloneable : SymbolTable := { source := kennel.source, methodExtensions := [cloning] }

theorem cloneable_settled : cloneable.Settled where
  properties := by simp [cloneable]
  methods := by
    intro x hx c _
    cases List.mem_singleton.mp hx
    exact ⟨_, .consult fun _ => .answer⟩

/-- A failure between two look-ups of a class changes neither. -/
theorem cloneable_answers :
    cloneable.source = kennel.source ∧ cloneable.Settled ∧
      cloneable.answerAlone (.classInfo "Snake") = .error (.circularHierarchy "Snake") ∧
      cloneable.answers [.classInfo "Dog", .classInfo "Snake", .classInfo "Dog"] {}
        = [.classInfo "Dog", .classInfo "Snake", .classInfo "Dog"].map cloneable.answerAlone :=
  ⟨rfl, cloneable_settled, rfl,
    SymbolTable.answers_eq_map_answerAlone rfl cloneable_settled _⟩

end PhpCheck
