/-
  PhpCheck/Proofs/LookUp/Faithful.lean
  ====================================
  **Faithful memories** — what a symbol table may remember, and what a look-up
  does to it.

  A memory is faithful (`Faithful`) when each class in it is assembled, the
  classes above it are in it too, and none that is being put together is in it.
  So a remembered class cannot reach a class that is being put together, and
  nothing stands in its way (`Faithful.obstacle_eq_none`): to remember it and to
  search anew come to the same.

  Steps keep a memory faithful and only add to it (`Grows`); `Meets` says so of
  one step, together with what the step gives.  A look-up gives the class that
  is then remembered, or else the first obstacle (`lookUp_finds`).  Extensions
  look classes up in the middle of this and ignore what comes of it; since that
  keeps the memory faithful as well, nothing depends on it.
-/
import PhpCheck.Proofs.Hierarchy.Assembled
import PhpCheck.Proofs.LookUp.Run

namespace PhpCheck

open Analysis

/-! ### What may be remembered -/

/-- The class remembered for a name, as a function on all names. -/
def Memory.recall (m : Memory) (name : String) : ClassInfo := (m.classes.get? name).getD { name }

/-- What is remembered is what would be found. -/
structure Faithful (t : SymbolTable) (m : Memory) : Prop where
  assembles : ∀ {name : String} {c : ClassInfo},
    m.classes.get? name = some c → t.Assembles name c
  closed : ∀ {name above : String}, (m.classes.get? name).isSome →
    t.source.DependsOn name above → (m.classes.get? above).isSome
  apart : ∀ {name : String}, name ∈ m.building → m.classes.get? name = none
  functions : ∀ {key : String} {f : Signature}, m.functions.get? key = some f →
    ∃ decl, t.source.function? key = some decl ∧ f = decl.info key

structure Grows (m m' : Memory) : Prop where
  building : m'.building = m.building
  classes : ∀ {name : String} {c : ClassInfo},
    m.classes.get? name = some c → m'.classes.get? name = some c

theorem Grows.refl (m : Memory) : Grows m m := ⟨rfl, id⟩

theorem Grows.trans {m m' m'' : Memory} (h : Grows m m') (h' : Grows m' m'') : Grows m m'' :=
  ⟨h'.building.trans h.building, fun hc => h'.classes (h.classes hc)⟩

theorem Grows.isSome {m m' : Memory} {name : String} (h : Grows m m')
    (hn : (m.classes.get? name).isSome) : (m'.classes.get? name).isSome := by
  obtain ⟨c, hc⟩ := Option.isSome_iff_exists.mp hn
  simp [h.classes hc]

theorem Grows.recall {m m' : Memory} {name : String} (h : Grows m m')
    (hn : (m.classes.get? name).isSome) : m'.recall name = m.recall name := by
  obtain ⟨c, hc⟩ := Option.isSome_iff_exists.mp hn
  simp [Memory.recall, hc, h.classes hc]

namespace Faithful

variable {t : SymbolTable} {m : Memory} {name k : String} {c : ClassInfo}

theorem start : Faithful t {} where
  assembles h := by simp at h
  closed h := by simp at h
  apart h := by simp at h
  functions h := by simp at h

theorem isSome_of_reaches (h : Faithful t m) (hn : (m.classes.get? name).isSome)
    (hr : t.source.Reaches name k) : (m.classes.get? k).isSome := by
  induction hr with
  | refl => exact hn
  | tail _ hd ih => exact h.closed ih hd

/-- Nothing stands in the way of a class that is remembered. -/
theorem obstacle_eq_none (h : Faithful t m) (hn : m.classes.get? name = some c) :
    t.source.obstacle m.building name = none := by
  refine SymbolSource.obstacle_eq_none_of_grounded (h.assembles hn).grounded ?_
  intro k hr hk
  have hsome := h.isSome_of_reaches (by simp [hn]) hr
  simp [h.apart hk] at hsome

theorem mark (h : Faithful t m) (hn : m.classes.get? name = none) : Faithful t (m.mark name) where
  assembles := h.assembles
  closed := h.closed
  functions := h.functions
  apart := by
    intro k hk
    rcases List.mem_cons.mp hk with rfl | hk
    · exact hn
    · exact h.apart hk

theorem unmark (h : Faithful t m) (name : String) : Faithful t (m.unmark name) where
  assembles := h.assembles
  closed := h.closed
  functions := h.functions
  apart hk := h.apart (List.mem_of_mem_erase hk)

theorem addNote (h : Faithful t m) (line : String) : Faithful t (m.addNote line) :=
  ⟨h.assembles, h.closed, h.apart, h.functions⟩

theorem addClass (h : Faithful t m) (hc : t.Assembles name c)
    (habove : ∀ above, t.source.DependsOn name above → (m.classes.get? above).isSome)
    (hn : name ∉ m.building) : Faithful t (m.addClass name c) where
  functions := h.functions
  assembles := by
    intro k d hk
    rw [m.get?_classes_addClass] at hk
    split at hk
    · rename_i he
      rw [← Option.some.inj hk, he]
      exact hc
    · exact h.assembles hk
  closed := by
    intro k above hk hd
    rw [m.get?_classes_addClass] at hk ⊢
    split
    · rfl
    · by_cases he : k = name
      · exact habove above (he ▸ hd)
      · rw [if_neg he] at hk
        exact h.closed hk hd
  apart := by
    intro k hk
    rw [m.get?_classes_addClass, if_neg ?_]
    · exact h.apart hk
    · rintro rfl
      exact hn hk

end Faithful

/-! ### What a step gives -/

/-- From a memory a step leads to a faithful memory that has all the first one has, and what it
    gives is as stated. -/
structure Meets {α : Type} (t : SymbolTable) (m : Memory) (x : Analysis α)
    (post : Except Failure α → Memory → Prop) : Prop where
  faithful : Faithful t (x.runFrom m).2
  grows : Grows m (x.runFrom m).2
  gives : post (x.runFrom m).1 (x.runFrom m).2

namespace Meets

variable {α β : Type} {t : SymbolTable} {m : Memory} {x : Analysis α}
  {P : Except Failure α → Memory → Prop} {Q : Except Failure β → Memory → Prop}

theorem pure (hm : Faithful t m) {a : α} (h : P (.ok a) m) : Meets t m (pure a) P :=
  ⟨hm, .refl m, h⟩

theorem of_run {r : Except Failure α} {m' : Memory} (hrun : x.runFrom m = (r, m'))
    (hm : Faithful t m') (hg : Grows m m') (h : P r m') : Meets t m x P := by
  constructor <;> rw [hrun] <;> assumption

theorem bind {f : α → Analysis β} (hx : Meets t m x P)
    (hok : ∀ a m', Faithful t m' → Grows m m' → P (.ok a) m' → Meets t m' (f a) Q)
    (herror : ∀ cause m', P (.error cause) m' → Q (.error cause) m') :
    Meets t m (x >>= f) Q := by
  obtain ⟨hm, hg, hp⟩ := hx
  rcases hr : x.runFrom m with ⟨cause | a, m'⟩
  · rw [hr] at hm hg hp
    exact .of_run (runFrom_bind_error hr f) hm hg (herror cause m' hp)
  · rw [hr] at hm hg hp
    obtain ⟨hm', hg', hq⟩ := hok a m' hm hg hp
    exact .of_run (runFrom_bind_ok hr f) hm' (hg.trans hg') hq

theorem attempt (hx : Meets t m x P) :
    Meets t m x.attempt fun r m' => ∃ outcome, r = .ok outcome ∧ P outcome m' :=
  ⟨hx.faithful, hx.grows, _, rfl, hx.gives⟩

theorem addNote (hm : Faithful t m) (line : String) :
    Meets t m (modify (·.addNote line)) fun r _ => r = .ok ⟨⟩ :=
  ⟨hm.addNote line, ⟨rfl, id⟩, rfl⟩

theorem mono {P' : Except Failure α → Memory → Prop} (hx : Meets t m x P)
    (h : ∀ r m', P r m' → P' r m') : Meets t m x P' :=
  ⟨hx.faithful, hx.grows, h _ _ hx.gives⟩

end Meets

/-! ### Taking from other classes -/

/-- A step fails with the obstacle, if there is one, and else gives something good. -/
def Gives {α : Type} (obstacle : Option Failure) (good : α → Prop) : Except Failure α → Prop
  | .ok a => obstacle = none ∧ good a
  | .error cause => obstacle = some cause

theorem Gives.unique {α : Type} {obstacle : Option Failure} {good : α → Prop}
    {r r' : Except Failure α} (hgood : ∀ a b, good a → good b → a = b)
    (h : Gives obstacle good r) (h' : Gives obstacle good r') : r = r' := by
  cases r with
  | error cause =>
    have h : obstacle = some cause := h
    cases r' with
    | error cause' =>
      have h' : obstacle = some cause' := h'
      rw [Option.some.inj (h.symm.trans h')]
    | ok b => cases h.symm.trans h'.1
  | ok a =>
    cases r' with
    | error cause' =>
      have h' : obstacle = some cause' := h'
      cases h'.symm.trans h.1
    | ok b => rw [hgood a b h.2 h'.2]

section Taking

variable {t : SymbolTable} {path : List String} {look : String → Analysis ClassInfo} {m : Memory}

/-- The outcome of looking a class up: the first obstacle, or a class that is then remembered. -/
def Found (t : SymbolTable) (path : List String) (name : String) (r : Except Failure ClassInfo)
    (m : Memory) : Prop :=
  Gives (t.source.obstacle path name) (fun c => m.classes.get? name = some c) r

/-- A way to look classes up while just the classes of the path are being put together. -/
def Finds (t : SymbolTable) (path : List String) (look : String → Analysis ClassInfo) : Prop :=
  ∀ name m, Faithful t m → m.building = path → Meets t m (look name) (Found t path name)

/-- The outcome of looking several classes up, one after the other, for a class made of them. -/
def Took (t : SymbolTable) (path names : List String) (made : (String → ClassInfo) → ClassInfo)
    (r : Except Failure ClassInfo) (m : Memory) : Prop :=
  Gives (names.findSome? (t.source.obstacle path))
    (fun c => (∀ n ∈ names, (m.classes.get? n).isSome) ∧ c = made m.recall) r

/-- A class that was made of some classes is not changed by what is looked up later. -/
theorem Took.bind (names : List String) {names' : List String}
    {made : (String → ClassInfo) → ClassInfo} {made' : ClassInfo → (String → ClassInfo) → ClassInfo}
    {x : Analysis ClassInfo} {f : ClassInfo → Analysis ClassInfo} (hb : m.building = path)
    (hmade : ∀ {info info' : String → ClassInfo},
      (∀ n ∈ names, info n = info' n) → made info = made info')
    (hx : Meets t m x (Took t path names made))
    (hf : ∀ c m', Faithful t m' → m'.building = path →
      Meets t m' (f c) (Took t path names' (made' c))) :
    Meets t m (x >>= f) (Took t path (names ++ names') fun info => made' (made info) info) := by
  refine hx.bind ?_ ?_
  · rintro c m' hm' hg ⟨ho, hnames, rfl⟩
    obtain ⟨hm'', hg', htook⟩ := hf (made m'.recall) m' hm' (hg.building.trans hb)
    refine ⟨hm'', hg', ?_⟩
    generalize ((f (made m'.recall)).runFrom m').2 = m'' at hm'' hg' htook ⊢
    have hsame : made m'.recall = made m''.recall :=
      hmade fun n hn => (hg'.recall (hnames n hn)).symm
    cases hr : ((f (made m'.recall)).runFrom m').1 with
    | error cause =>
      rw [hr] at htook
      have ho' : names'.findSome? (t.source.obstacle path) = some cause := htook
      show (names ++ names').findSome? (t.source.obstacle path) = some cause
      rw [List.findSome?_append, ho, ho', Option.none_or]
    | ok d =>
      rw [hr] at htook
      obtain ⟨ho', hnames', hd⟩ := htook
      refine ⟨by rw [List.findSome?_append, ho, ho', Option.none_or], ?_, by rw [hd, hsame]⟩
      intro n hn
      rcases List.mem_append.mp hn with hn | hn
      · exact hg'.isSome (hnames n hn)
      · exact hnames' n hn
  · intro cause m' ho
    have ho : names.findSome? (t.source.obstacle path) = some cause := ho
    show (names ++ names').findSome? (t.source.obstacle path) = some cause
    rw [List.findSome?_append, ho, Option.some_or]

theorem foldlM_took (hlook : Finds t path look) (step : ClassInfo → ClassInfo → ClassInfo)
    (names : List String) (c : ClassInfo) (hm : Faithful t m) (hb : m.building = path) :
    Meets t m (names.foldlM (fun c n => return step c (← look n)) c)
      (Took t path names fun info => names.foldl (fun c n => step c (info n)) c) := by
  induction names generalizing c m with
  | nil => exact .pure hm ⟨rfl, by simp, rfl⟩
  | cons n rest ih =>
    rw [List.foldlM_cons]
    have hone : Meets t m (do return step c (← look n))
        (Took t path [n] fun info => step c (info n)) := by
      refine (hlook n m hm hb).bind ?_ ?_
      · rintro i m' hm' - ⟨ho, hget⟩
        refine .pure hm' ⟨by rw [List.findSome?_singleton, ho], by simp [hget], ?_⟩
        simp [Memory.recall, hget]
      · intro cause m' ho
        show [n].findSome? (t.source.obstacle path) = some cause
        rw [List.findSome?_singleton]
        exact ho
    refine Took.bind [n] hb ?_ hone fun c' m' hm' hb' => ih c' hm' hb'
    intro info info' h
    rw [h n List.mem_cons_self]

theorem gather_took (hlook : Finds t path look) (decl : ClassDecl) (hm : Faithful t m)
    (hb : m.building = path) :
    Meets t m (SymbolTable.gather look decl) (Took t path decl.above decl.assemble) := by
  have habove : decl.above = decl.traits ++ (decl.parent.toList ++ decl.interfaces) := by
    rw [ClassDecl.above, List.append_assoc]
  rw [habove]
  have hinterfaces : ∀ (c : ClassInfo) m', Faithful t m' → m'.building = path →
      Meets t m'
        (do
          let c ← decl.interfaces.foldlM (fun c above => return c.implement (← look above)) c
          return c.withoutRepeats)
        (Took t path decl.interfaces fun info =>
          (decl.interfaces.foldl (fun c above => c.implement (info above)) c).withoutRepeats) := by
    intro c m' hm' hb'
    refine (foldlM_took hlook ClassInfo.implement _ c hm' hb').bind ?_ fun _ _ ho => ho
    rintro c m'' hm'' - ⟨ho, hnames, rfl⟩
    exact .pure hm'' ⟨ho, hnames, rfl⟩
  have hparent := fun (c : ClassInfo) m' (hm' : Faithful t m') (hb' : m'.building = path) =>
    Took.bind decl.parent.toList hb' (foldl_take_congr ClassInfo.extendParent c)
      (foldlM_took hlook ClassInfo.extendParent _ c hm' hb') hinterfaces
  exact Took.bind decl.traits hb (foldl_take_congr ClassInfo.useTrait _)
    (foldlM_took hlook ClassInfo.useTrait _ _ hm hb) hparent

end Taking

/-! ### Extensions -/

section Extending

variable {α : Type} {t : SymbolTable} {path : List String} {look : String → Analysis ClassInfo}
  {m : Memory}

theorem Consultation.run_meets (hlook : Finds t path look) (x : Consultation α)
    (hm : Faithful t m) (hb : m.building = path) :
    Meets t m (x.run look) fun r _ => Gives none (x.MayAnswer ·) r := by
  induction x generalizing m with
  | answer value => exact .pure hm ⟨rfl, .answer⟩
  | note line next ih =>
    refine (Meets.addNote hm line).bind ?_ ?_
    · intro _ m' hm' hg _
      refine (ih hm' (hg.building.trans hb)).mono ?_
      rintro (_ | v) _ hgives
      · exact hgives
      · exact ⟨rfl, .note hgives.2⟩
    · intro _ _ h
      cases h
  | consult name next ih =>
    refine (hlook name m hm hb).attempt.bind ?_ ?_
    · rintro outcome m' hm' hg -
      refine (ih outcome hm' (hg.building.trans hb)).mono ?_
      rintro (_ | v) _ hgives
      · exact hgives
      · exact ⟨rfl, .consult outcome hgives.2⟩
    · rintro _ _ ⟨_, h, _⟩
      cases h

theorem extendWith_meets (hlook : Finds t path look) (add : ClassInfo → List α → ClassInfo)
    (xs : List (MemberExtension α)) (c : ClassInfo) (hm : Faithful t m) (hb : m.building = path) :
    Meets t m (xs.foldlM (SymbolTable.extendWith look add) c)
      fun r _ => Gives none (Extended add xs c) r := by
  induction xs generalizing c m with
  | nil => exact .pure hm ⟨rfl, .done⟩
  | cons x rest ih =>
    rw [List.foldlM_cons]
    unfold SymbolTable.extendWith
    by_cases happ : x.appliesTo c = true
    · rw [if_pos happ, bind_assoc]
      refine ((x.members c).run_meets hlook hm hb).bind ?_ fun _ _ h => by cases h
      rintro members m' hm' hg ⟨-, hmembers⟩
      rw [pure_bind]
      refine (ih (add c members) hm' (hg.building.trans hb)).mono ?_
      rintro (_ | d) _ hgives
      · exact hgives
      · exact ⟨rfl, .apply happ hmembers hgives.2⟩
    · rw [if_neg happ, pure_bind]
      refine (ih c hm hb).mono ?_
      rintro (_ | d) _ hgives
      · exact hgives
      · exact ⟨rfl, .skip (by simpa using happ) hgives.2⟩

end Extending

end PhpCheck
