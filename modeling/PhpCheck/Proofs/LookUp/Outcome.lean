/-
  PhpCheck/Proofs/LookUp/Outcome.lean
  ===================================
  **What a look-up comes to** — from every faithful memory, the first obstacle on
  the way up from the class, or the class that its declaration describes.

  The answer does not mention the memory, apart from the classes that are being
  put together.  The induction is on the depth of the look-up: `build_meets` is
  the step, in which the class is marked, and by `unvisited_cons_lt` a marked
  name leaves fewer names to visit.
-/
import PhpCheck.Proofs.LookUp.Faithful

namespace PhpCheck

open Analysis

namespace Grows

variable {m m' : Memory} {name : String}

/-- What was added while a class was marked stays when its mark is removed. -/
theorem unmark (h : Grows (m.mark name) m') : Grows m (m'.unmark name) where
  classes := h.classes
  building := by
    rw [Memory.building_unmark, h.building, Memory.building_mark, List.erase_cons_head]

theorem addClass (h : Grows m m') (hn : m.classes.get? name = none) (c : ClassInfo) :
    Grows m (m'.addClass name c) where
  building := h.building
  classes := by
    intro k d hk
    rw [Memory.get?_classes_addClass, if_neg ?_]
    · exact h.classes hk
    · rintro rfl
      rw [hn] at hk
      cases hk

end Grows

namespace SymbolTable

variable {t : SymbolTable} {path : List String} {look : String → Analysis ClassInfo} {m : Memory}
  {name : String}

theorem build_meets {decl : ClassDecl} (he : t.source.classExists name = .ok true)
    (hd : t.source.class? name = some decl) (hlook : Finds t path look) (hm : Faithful t m)
    (hb : m.building = path) :
    Meets t m (t.build look name) fun r m' =>
      Gives (decl.above.findSome? (t.source.obstacle path))
        (fun c => (∀ above ∈ decl.above, (m'.classes.get? above).isSome) ∧ t.Assembles name c)
        r := by
  unfold build
  rw [hd]
  refine (gather_took hlook decl hm hb).bind ?_ fun _ _ ho => ho
  rintro c m₁ hm₁ hg₁ ⟨ho, hnames, rfl⟩
  have hb₁ := hg₁.building.trans hb
  refine (extendWith_meets hlook _ _ _ hm₁ hb₁).bind ?_ fun _ _ h => by cases h
  rintro c m₂ hm₂ hg₂ ⟨-, hproperties⟩
  obtain ⟨hm₃, hg₃, hgives⟩ := extendWith_meets hlook ClassInfo.addMethods t.methodExtensions c
    hm₂ (hg₂.building.trans hb₁)
  refine ⟨hm₃, hg₃, ?_⟩
  have habove : ∀ above ∈ decl.above, t.Assembles above (m₁.recall above) := by
    intro above hmem
    obtain ⟨i, hi⟩ := Option.isSome_iff_exists.mp (hnames above hmem)
    simpa [Memory.recall, hi] using hm₁.assembles hi
  cases hr : ((t.methodExtensions.foldlM (extendWith look ClassInfo.addMethods) c).runFrom m₂).1 with
  | error cause =>
    rw [hr] at hgives
    cases hgives
  | ok d =>
    rw [hr] at hgives
    refine ⟨ho, ?_, .intro he hd habove hproperties hgives.2⟩
    intro above hmem
    exact hg₃.isSome (hg₂.isSome (hnames above hmem))

theorem buildMarked_meets (he : t.source.classExists name = .ok true) (hp : name ∉ path)
    (hlook : ∀ decl, t.source.class? name = some decl → Finds t (name :: path) look)
    (hm : Faithful t m) (hb : m.building = path) (hn : m.classes.get? name = none) :
    Meets t m (t.buildMarked look name) (Found t path name) := by
  have hrun := t.runFrom_buildMarked look name m
  cases hd : t.source.class? name with
  | none =>
    have hbuild : (t.build look name).runFrom (m.mark name)
        = (.error (.classNotFound name), m.mark name) := by
      unfold build
      rw [hd]
      rfl
    rw [hbuild] at hrun
    refine .of_run hrun ((hm.mark hn).unmark name) (Grows.refl _).unmark ?_
    show t.source.obstacle path name = some (.classNotFound name)
    exact SymbolSource.obstacle_of_undeclared he hp hd
  | some decl =>
    obtain ⟨hm', hg', hgives⟩ := build_meets he hd (hlook decl hd) (hm.mark hn) (by simp [hb])
    have ho := SymbolSource.obstacle_eq_findSome? he hp hd
    rcases hr : (t.build look name).runFrom (m.mark name) with ⟨cause | c, m'⟩
    · rw [hr] at hrun hm' hg' hgives
      refine .of_run hrun (hm'.unmark name) hg'.unmark ?_
      exact ho.trans hgives
    · rw [hr] at hrun hm' hg' hgives
      obtain ⟨hnone, habove, hc⟩ := hgives
      have hfaithful : Faithful t ((m'.unmark name).addClass name c) := by
        refine (hm'.unmark name).addClass hc ?_ ?_
        · rintro above ⟨decl', hd', hmem⟩
          cases hd.symm.trans hd'
          exact habove above hmem
        · rw [hg'.unmark.building, hb]
          exact hp
      refine .of_run hrun hfaithful (hg'.unmark.addClass hn c) ⟨ho.trans hnone, ?_⟩
      rw [Memory.get?_classes_addClass, if_pos rfl]

theorem lookUpVia_finds
    (hlook : ∀ name decl, name ∉ path → t.source.class? name = some decl →
      Finds t (name :: path) look) : Finds t path (t.lookUpVia look) := by
  intro name m hm hb
  have hrun := t.runFrom_lookUpVia look name m
  cases hc : m.classes.get? name with
  | some c =>
    rw [hc] at hrun
    exact .of_run hrun hm (.refl m) ⟨hb ▸ hm.obstacle_eq_none hc, hc⟩
  | none =>
    have ho := SymbolSource.obstacle.eq_def t.source path name
    cases he : t.source.classExists name with
    | error reason =>
      rw [hc, he] at hrun
      rw [he] at ho
      exact .of_run hrun hm (.refl m) ho
    | ok known =>
      cases known with
      | false =>
        rw [hc, he] at hrun
        rw [he] at ho
        exact .of_run hrun hm (.refl m) ho
      | true =>
        rw [hc, he] at hrun
        by_cases hp : name ∈ path
        · have hrun : _ = if name ∈ m.building then _ else _ := hrun
          rw [if_pos (hb ▸ hp)] at hrun
          refine .of_run hrun hm (.refl m) ?_
          exact SymbolSource.obstacle_of_mem he hp
        · have hrun : _ = if name ∈ m.building then _ else _ := hrun
          rw [if_neg (hb ▸ hp)] at hrun
          have hmarked := buildMarked_meets he hp (hlook name · hp) hm hb hc
          exact .of_run hrun hmarked.faithful hmarked.grows hmarked.gives

/-- **The outcome of a look-up** of enough depth. -/
theorem lookUp_finds {deeper : String → Analysis ClassInfo} {depth : Nat}
    (h : t.source.unvisited path < depth) : Finds t path (t.lookUp deeper depth) := by
  induction depth generalizing path with
  | zero => exact absurd h (Nat.not_lt_zero _)
  | succ n ih =>
    unfold lookUp
    apply lookUpVia_finds
    intro name decl hp hd
    have hlt := SymbolSource.unvisited_cons_lt hp hd
    exact ih (by omega)

theorem classInfo_finds (t : SymbolTable) (path : List String) : Finds t path t.classInfo :=
  lookUp_finds (Nat.lt_succ_of_le (t.source.unvisited_le path))

/-- The answer of a look-up, said without the memory. -/
theorem classInfo_gives (name : String) (hm : Faithful t m) :
    Gives (t.source.obstacle m.building name) (t.Assembles name)
      ((t.classInfo name).runFrom m).1 := by
  obtain ⟨hm', -, hfound⟩ := t.classInfo_finds m.building name m hm rfl
  cases hr : ((t.classInfo name).runFrom m).1 with
  | error cause =>
    rw [hr] at hfound
    exact hfound
  | ok c =>
    rw [hr] at hfound
    exact ⟨hfound.1, hm'.assembles hfound.2⟩

theorem assembles_of_ok {c : ClassInfo} (hm : Faithful t m)
    (h : ((t.classInfo name).runFrom m).1 = .ok c) : t.Assembles name c := by
  have hgives := classInfo_gives name hm
  rw [h] at hgives
  exact hgives.2

end SymbolTable

end PhpCheck
