/-
  PhpCheck/Proofs/Analysis/Repeat.lean
  ====================================
  **Asking again** — a step gives the same, or fails in the same way, when it is
  done again at any later time with the same symbol table.

  What an extension adds to a class may depend on what was looked up before, so
  two tables over one source need not agree.  One table agrees with itself: a
  class that was found is remembered, and a function is known later just when it
  is known now (`Later`).  A class that was not found is not found later either,
  whatever was remembered in between.  A step is repeatable (`Repeatable`) when its
  outcome rests on such facts only.  If all extensions are settled, its outcome does
  not rest on the memory at all.

  Repeatable steps compose, so each function of the analysis is repeatable
  because the look-ups that it is made of are.
-/
import PhpCheck.Proofs.LookUp.Query

namespace PhpCheck

open Analysis

/-! ### What a look-up of a class leaves alone -/

/-- The step leaves a part of the memory as it was. -/
def Keeps {α β : Type} (part : Memory → β) (x : Analysis α) : Prop :=
  ∀ m, part (x.runFrom m).2 = part m

namespace Keeps

variable {α β γ : Type} {part : Memory → γ}

theorem pure (a : α) : Keeps part (pure a : Analysis α) := fun _ => rfl

theorem throw (cause : Failure) : Keeps part (throw cause : Analysis α) := fun _ => rfl

theorem modify {f : Memory → Memory} (h : ∀ m, part (f m) = part m) :
    Keeps part (modify f : Analysis PUnit) := h

theorem bind {x : Analysis α} {f : α → Analysis β} (hx : Keeps part x)
    (hf : ∀ a, Keeps part (f a)) : Keeps part (x >>= f) := by
  intro m
  have hm := hx m
  rcases hr : x.runFrom m with ⟨cause | a, m'⟩
  · rw [runFrom_bind_error hr]
    rw [hr] at hm
    exact hm
  · rw [runFrom_bind_ok hr, hf a m']
    rw [hr] at hm
    exact hm

theorem attempt {x : Analysis α} (hx : Keeps part x) : Keeps part x.attempt := hx

theorem foldlM {f : α → β → Analysis α} (h : ∀ a b, Keeps part (f a b)) (bs : List β) (a : α) :
    Keeps part (bs.foldlM f a) := by
  induction bs generalizing a with
  | nil => exact .pure a
  | cons b rest ih =>
    rw [List.foldlM_cons]
    exact (h a b).bind fun a' => ih a'

end Keeps

/-- A look-up of a class leaves the functions as they were. -/
abbrev KeepsFunctions {α : Type} (x : Analysis α) : Prop := Keeps Memory.functions x

section Looking

variable {α : Type} {look : String → Analysis ClassInfo}

theorem Consultation.run_keepsFunctions (h : ∀ name, KeepsFunctions (look name))
    (x : Consultation α) : KeepsFunctions (x.run look) := by
  induction x with
  | answer value => exact .pure value
  | note line next ih =>
    have hnote : KeepsFunctions (modify (·.addNote line)) := .modify fun _ => rfl
    exact hnote.bind fun _ => ih
  | consult name next ih => exact (h name).attempt.bind ih

namespace SymbolTable

variable {t : SymbolTable}

theorem extendWith_keepsFunctions (h : ∀ name, KeepsFunctions (look name))
    (add : ClassInfo → List α → ClassInfo) (c : ClassInfo) (x : MemberExtension α) :
    KeepsFunctions (extendWith look add c x) := by
  unfold extendWith
  split
  · exact ((x.members c).run_keepsFunctions h).bind fun members => .pure (add c members)
  · exact .pure c

theorem build_keepsFunctions (h : ∀ name, KeepsFunctions (look name)) (name : String) :
    KeepsFunctions (t.build look name) := by
  have fold : ∀ (step : ClassInfo → ClassInfo → ClassInfo) (names : List String) (c : ClassInfo),
      KeepsFunctions (names.foldlM (fun c n => return step c (← look n)) c) := by
    intro step names c
    exact .foldlM (fun c n => (h n).bind fun i => .pure (step c i)) names c
  unfold build gather
  cases t.source.class? name with
  | none => exact .throw (.classNotFound name)
  | some decl =>
    refine Keeps.bind ?_ fun c => ?_
    · refine (fold ClassInfo.useTrait _ _).bind fun c => ?_
      refine (fold ClassInfo.extendParent _ _).bind fun c => ?_
      exact (fold ClassInfo.implement _ _).bind fun c => .pure c.withoutRepeats
    · refine Keeps.bind ?_ fun c => ?_
      · exact .foldlM (extendWith_keepsFunctions h ClassInfo.addProperties) _ c
      · exact .foldlM (extendWith_keepsFunctions h ClassInfo.addMethods) _ c

theorem lookUpVia_keepsFunctions (h : ∀ name, KeepsFunctions (look name)) (name : String) :
    KeepsFunctions (t.lookUpVia look name) := by
  intro m
  rw [runFrom_lookUpVia]
  split
  · rfl
  · rfl
  · rfl
  · split
    · rfl
    · have hbuild := build_keepsFunctions (t := t) h name (m.mark name)
      rw [runFrom_buildMarked]
      rcases hr : (t.build look name).runFrom (m.mark name) with ⟨_ | c, m'⟩ <;>
        · rw [hr] at hbuild
          exact hbuild

theorem classInfo_keepsFunctions (t : SymbolTable) (name : String) :
    KeepsFunctions (t.classInfo name) := by
  unfold classInfo
  generalize t.source.classNames.length + 1 = depth
  induction depth generalizing name with
  | zero => exact .throw (.circularHierarchy name)
  | succ depth ih => exact lookUpVia_keepsFunctions ih name

end SymbolTable

end Looking

/-! ### Later memories -/

def SymbolTable.knowsFunction (t : SymbolTable) (m : Memory) (key : String) : Bool :=
  m.functions.contains key || t.source.functionExists key

/-- The second memory has all that the first one has, and knows the same functions. -/
structure Later (t : SymbolTable) (m m' : Memory) : Prop where
  grows : Grows m m'
  functions : ∀ {key : String} {f : Signature},
    m.functions.get? key = some f → m'.functions.get? key = some f
  known : ∀ key, t.knowsFunction m' key = t.knowsFunction m key

namespace Later

variable {t : SymbolTable} {m m' m'' : Memory}

theorem refl (m : Memory) : Later t m m := ⟨.refl m, id, fun _ => rfl⟩

theorem trans (h : Later t m m') (h' : Later t m' m'') : Later t m m'' where
  grows := h.grows.trans h'.grows
  functions hf := h'.functions (h.functions hf)
  known key := (h'.known key).trans (h.known key)

theorem of_functions (hg : Grows m m') (h : m'.functions = m.functions) : Later t m m' where
  grows := hg
  functions hf := by rwa [h]
  known key := by rw [SymbolTable.knowsFunction, h, SymbolTable.knowsFunction]

end Later

/-! ### Repeatable steps -/

/-- Functions that are declared exist. -/
def SymbolSource.KnowsFunctions (s : SymbolSource) : Prop :=
  ∀ key, (s.function? key).isSome → s.functionExists key = true

theorem Program.knowsFunctions (p : Program) : p.source.KnowsFunctions := fun _ h => h

/-- The step keeps memories faithful, and if nothing but the source decides what a class is, its
    outcome does not rest on what is remembered. -/
structure Orderly {α : Type} (t : SymbolTable) (x : Analysis α) : Prop where
  steady : Steady t x
  transparent : t.source.KnowsFunctions → Transparent t x

/-- The step has the same outcome again, from every later memory of the same table. -/
structure Repeatable {α : Type} (t : SymbolTable) (x : Analysis α) : Prop extends Orderly t x where
  later : ∀ {m : Memory}, AtRest t m → Later t m (x.runFrom m).2
  again : ∀ {m m' : Memory}, AtRest t m → AtRest t m' → Later t (x.runFrom m).2 m' →
    (x.runFrom m').1 = (x.runFrom m).1

section Composing

variable {α β : Type} {t : SymbolTable} {x : Analysis α}

theorem Transparent.orderly (h : Transparent t x) : Orderly t x := ⟨h.steady, fun _ => h⟩

namespace Orderly

theorem pure (a : α) : Orderly t (pure a : Analysis α) := (Transparent.pure a).orderly

theorem bind {f : α → Analysis β} (hx : Orderly t x) (hf : ∀ a, Orderly t (f a)) :
    Orderly t (x >>= f) where
  steady := hx.steady.bind fun a => (hf a).steady
  transparent hk := (hx.transparent hk).bind fun a => (hf a).transparent hk

theorem atRest {m : Memory} (hx : Orderly t x) (hm : AtRest t m) : AtRest t (x.runFrom m).2 :=
  hx.steady.atRest hm

end Orderly

namespace Repeatable

theorem pure (a : α) : Repeatable t (pure a : Analysis α) where
  toOrderly := .pure a
  later _ := .refl _
  again _ _ _ := rfl

theorem throw (cause : Failure) : Repeatable t (throw cause : Analysis α) where
  toOrderly := by
    apply Transparent.orderly
    refine .of_outcome (.error cause) ?_ fun _ _ => rfl
    intro m hm
    exact ⟨hm, .refl m⟩
  later _ := .refl _
  again _ _ _ := rfl

theorem bind {f : α → Analysis β} (hx : Repeatable t x) (hf : ∀ a, Repeatable t (f a)) :
    Repeatable t (x >>= f) where
  toOrderly := hx.toOrderly.bind fun a => (hf a).toOrderly
  later := by
    intro m hm
    have hlater := hx.later hm
    have hrest := hx.atRest hm
    rcases hr : x.runFrom m with ⟨cause | a, n⟩
    · rw [hr] at hlater
      rw [runFrom_bind_error hr]
      exact hlater
    · rw [hr] at hlater hrest
      rw [runFrom_bind_ok hr]
      exact hlater.trans ((hf a).later hrest)
  again := by
    intro m m' hm hm' hl
    have hrest := hx.atRest hm
    have hrest' := hx.atRest hm'
    have hlater' := hx.later hm'
    have hagain := hx.again hm hm'
    rcases hr : x.runFrom m with ⟨cause | a, n⟩
    · rw [runFrom_bind_error hr] at hl ⊢
      rw [hr] at hagain
      have hcause : x.runFrom m' = (.error cause, (x.runFrom m').2) := Prod.ext (hagain hl) rfl
      rw [runFrom_bind_error hcause]
    · rw [hr] at hrest hagain
      rw [runFrom_bind_ok hr] at hl ⊢
      -- All that the first step left behind is still there after the second one.
      have ha : x.runFrom m' = (.ok a, (x.runFrom m').2) :=
        Prod.ext (hagain (((hf a).later hrest).trans hl)) rfl
      rw [runFrom_bind_ok ha]
      exact (hf a).again hrest hrest' (hl.trans hlater')

/-- If a first step would succeed afterwards, it did succeed, and gave the same. -/
theorem bind_of_later_ok {f : α → Analysis β} (hx : Repeatable t x)
    (hf : ∀ a, Repeatable t (f a)) {m m' : Memory} {a : α} (hm : AtRest t m) (hm' : AtRest t m')
    (hl : Later t ((x >>= f).runFrom m).2 m') (ha : (x.runFrom m').1 = .ok a) :
    ∃ n, AtRest t n ∧ (x >>= f).runFrom m = (f a).runFrom n := by
  have hrest := hx.atRest hm
  have hagain := hx.again hm hm'
  rcases hr : x.runFrom m with ⟨cause | b, n⟩
  · rw [runFrom_bind_error hr] at hl
    rw [hr, ha] at hagain
    exact absurd (hagain hl) nofun
  · rw [runFrom_bind_ok hr] at hl
    rw [hr] at hrest
    rw [hr, ha] at hagain
    cases hagain (((hf b).later hrest).trans hl)
    exact ⟨n, hrest, runFrom_bind_ok hr f⟩

/-- If two steps succeed, the first one would give the same afterwards. -/
theorem bind_of_ok {f : α → Analysis β} (hx : Repeatable t x) (hf : ∀ a, Repeatable t (f a))
    {m m' : Memory} {b : β} (hm : AtRest t m) (hm' : AtRest t m')
    (hl : Later t ((x >>= f).runFrom m).2 m') (hb : ((x >>= f).runFrom m).1 = .ok b) :
    ∃ a n, (x.runFrom m').1 = .ok a ∧ AtRest t n ∧ (x >>= f).runFrom m = (f a).runFrom n := by
  have hrest := hx.atRest hm
  have hagain := hx.again hm hm'
  rcases hr : x.runFrom m with ⟨cause | a, n⟩
  · rw [runFrom_bind_error hr] at hb
    cases hb
  · rw [runFrom_bind_ok hr] at hl
    rw [hr] at hrest hagain
    exact ⟨a, n, hagain (((hf a).later hrest).trans hl), hrest, runFrom_bind_ok hr f⟩

theorem attempt (hx : Repeatable t x) : Repeatable t x.attempt where
  steady := hx.steady
  transparent hk := by
    refine ⟨hx.steady, ?_⟩
    intro hs m m' hm hm'
    rw [runFrom_attempt, runFrom_attempt, (hx.transparent hk).same hs hm hm']
  later := hx.later
  again := by
    intro m m' hm hm' hl
    rw [runFrom_attempt, runFrom_attempt, hx.again hm hm' hl]

theorem mapM {f : α → Analysis β} {as : List α} (h : ∀ a ∈ as, Repeatable t (f a)) :
    Repeatable t (as.mapM f) := by
  induction as with
  | nil => exact .pure []
  | cons a rest ih =>
    rw [List.mapM_cons]
    refine (h a List.mem_cons_self).bind fun b => ?_
    exact (ih fun a' ha => h a' (List.mem_cons_of_mem _ ha)).bind fun bs => .pure (b :: bs)

end Repeatable

end Composing

/-! ### Single look-ups -/

namespace SymbolTable

variable (t : SymbolTable) (name : String)

theorem hasClass_repeatable : Repeatable t (t.hasClass name) where
  toOrderly := (t.hasClass_transparent name).orderly
  later _ := by
    rw [runFrom_hasClass]
    exact .refl _
  again hm hm' _ := by
    rw [t.hasClass_answers name hm'.faithful, t.hasClass_answers name hm.faithful]

theorem classInfo_repeatable : Repeatable t (t.classInfo name) where
  toOrderly := (t.classInfo_transparent name).orderly
  later hm := .of_functions ((t.classInfo_transparent name).steady _ hm.faithful).2
    (t.classInfo_keepsFunctions name _)
  again := by
    intro m m' hm hm' hl
    obtain ⟨-, -, hfound⟩ := t.classInfo_finds m.building name m hm.faithful rfl
    cases hc : ((t.classInfo name).runFrom m).1 with
    | ok c =>
      rw [hc] at hfound
      have hget := hl.grows.classes hfound.2
      rw [classInfo, lookUp, runFrom_lookUpVia, hget]
    | error cause =>
      -- The obstacle is still in the way.
      rw [hc, hm.idle] at hfound
      have hgives := classInfo_gives name hm'.faithful
      rw [hm'.idle] at hgives
      cases hc' : ((t.classInfo name).runFrom m').1 with
      | ok c =>
        rw [hc'] at hgives
        exact absurd (hfound.symm.trans hgives.1) nofun
      | error cause' =>
        rw [hc'] at hgives
        exact congrArg Except.error (Option.some.inj (hgives.symm.trans hfound))

theorem classInfo?_repeatable : Repeatable t (t.classInfo? name) := by
  unfold classInfo?
  refine (t.hasClass_repeatable name).bind fun known => ?_
  cases known with
  | false => exact .pure none
  | true =>
    rw [if_pos rfl, map_eq_pure_bind]
    exact (t.classInfo_repeatable name).bind fun c => .pure (some c)

theorem returnExtensionsFor_repeatable : Repeatable t (t.returnExtensionsFor name) := by
  unfold returnExtensionsFor
  split
  · exact .pure []
  · exact (t.classInfo?_repeatable name).bind fun c => .pure _

end SymbolTable

end PhpCheck
