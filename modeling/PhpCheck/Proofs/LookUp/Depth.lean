/-
  PhpCheck/Proofs/LookUp/Depth.lean
  =================================
  **Look-ups end** — a look-up is nested less deep than there are declared names,
  from whatever memory it starts.

  `lookUp` leaves open what happens below its depth.  Two look-ups of enough
  depth agree whatever they would do below it (`lookUp_agree`), so neither gets
  there: this is what it means for the recursion to end by itself.  The measure
  is the number of declared names that are not being put together; each nested
  look-up marks one more of them.

  The same induction shows that a look-up leaves the marks as it found them, on
  success and on every failure.
-/
import PhpCheck.Proofs.Hierarchy.Dependence
import PhpCheck.Proofs.LookUp.Run

namespace PhpCheck

open Analysis

/-- Two steps do the same from every memory in which just these classes are being put together,
    and leave them so. -/
def Agree {α : Type} (path : List String) (x y : Analysis α) : Prop :=
  ∀ m, m.building = path → x.runFrom m = y.runFrom m ∧ (x.runFrom m).2.building = path

namespace Agree

variable {α β : Type} {path : List String}

theorem pure (a : α) : Agree path (pure a : Analysis α) (pure a) :=
  fun _ hm => ⟨rfl, hm⟩

theorem throw (cause : Failure) : Agree path (throw cause : Analysis α) (throw cause) :=
  fun _ hm => ⟨rfl, hm⟩

theorem bind {x y : Analysis α} {f g : α → Analysis β} (hx : Agree path x y)
    (hf : ∀ a, Agree path (f a) (g a)) : Agree path (x >>= f) (y >>= g) := by
  intro m hm
  obtain ⟨heq, hpath⟩ := hx m hm
  rw [runFrom_bind, runFrom_bind, ← heq]
  rcases hr : x.runFrom m with ⟨_ | a, m'⟩
  · rw [hr] at hpath
    exact ⟨rfl, hpath⟩
  · rw [hr] at hpath
    exact hf a m' hpath

theorem attempt {x y : Analysis α} (h : Agree path x y) : Agree path x.attempt y.attempt := by
  intro m hm
  obtain ⟨heq, hpath⟩ := h m hm
  rw [runFrom_attempt, runFrom_attempt, ← heq]
  exact ⟨rfl, hpath⟩

theorem modify {f : Memory → Memory} (h : ∀ m, (f m).building = m.building) :
    Agree path (modify f : Analysis PUnit) (modify f) :=
  fun m hm => ⟨rfl, (h m).trans hm⟩

theorem foldlM {f g : α → β → Analysis α} (h : ∀ a b, Agree path (f a b) (g a b)) (bs : List β)
    (a : α) : Agree path (bs.foldlM f a) (bs.foldlM g a) := by
  induction bs generalizing a with
  | nil => exact .pure a
  | cons b rest ih =>
    rw [List.foldlM_cons, List.foldlM_cons]
    exact (h a b).bind fun a' => ih a'

end Agree

/-! ### Steps that look classes up -/

section Parts

variable {α : Type} {path : List String} {look look' : String → Analysis ClassInfo}

theorem Consultation.run_agree (h : ∀ name, Agree path (look name) (look' name))
    (x : Consultation α) : Agree path (x.run look) (x.run look') := by
  induction x with
  | answer value => exact .pure value
  | note line next ih =>
    have hnote : Agree path (modify (·.addNote line) : Analysis PUnit) (modify (·.addNote line)) :=
      .modify fun _ => rfl
    exact hnote.bind fun _ => ih
  | consult name next ih => exact (h name).attempt.bind ih

namespace SymbolTable

theorem extendWith_agree (h : ∀ name, Agree path (look name) (look' name))
    (add : ClassInfo → List α → ClassInfo) (c : ClassInfo) (x : MemberExtension α) :
    Agree path (extendWith look add c x) (extendWith look' add c x) := by
  unfold extendWith
  split
  · exact ((x.members c).run_agree h).bind fun members => .pure (add c members)
  · exact .pure c

theorem gather_agree (h : ∀ name, Agree path (look name) (look' name)) (decl : ClassDecl) :
    Agree path (gather look decl) (gather look' decl) := by
  have fold : ∀ (step : ClassInfo → ClassInfo → ClassInfo) (names : List String) (c : ClassInfo),
      Agree path (names.foldlM (fun c n => return step c (← look n)) c)
        (names.foldlM (fun c n => return step c (← look' n)) c) := by
    intro step names c
    exact .foldlM (fun c n => (h n).bind fun i => .pure (step c i)) names c
  unfold gather
  refine (fold ClassInfo.useTrait _ _).bind fun c => ?_
  refine (fold ClassInfo.extendParent _ _).bind fun c => ?_
  exact (fold ClassInfo.implement _ _).bind fun c => .pure c.withoutRepeats

/-- Only a declared class looks other classes up when it is put together. -/
theorem build_agree {t : SymbolTable} {name : String}
    (h : ∀ decl, t.source.class? name = some decl → ∀ n, Agree path (look n) (look' n)) :
    Agree path (t.build look name) (t.build look' name) := by
  unfold build
  cases hd : t.source.class? name with
  | none => exact .throw (.classNotFound name)
  | some decl =>
    have hlook := h decl hd
    refine (gather_agree hlook decl).bind fun c => ?_
    refine (Agree.foldlM (extendWith_agree hlook ClassInfo.addProperties) _ c).bind fun c => ?_
    exact .foldlM (extendWith_agree hlook ClassInfo.addMethods) _ c

/-! ### Look-ups -/

theorem lookUpVia_agree {t : SymbolTable} {name : String}
    (h : name ∉ path → Agree (name :: path) (t.build look name) (t.build look' name)) :
    Agree path (t.lookUpVia look name) (t.lookUpVia look' name) := by
  intro m hm
  rw [t.runFrom_lookUpVia look, t.runFrom_lookUpVia look']
  split
  · exact ⟨rfl, hm⟩
  · exact ⟨rfl, hm⟩
  · exact ⟨rfl, hm⟩
  · split
    · exact ⟨rfl, hm⟩
    · rename_i hb
      obtain ⟨heq, hpath⟩ := h (hm ▸ hb) (m.mark name) (by simp [hm])
      rw [t.runFrom_buildMarked look, t.runFrom_buildMarked look', ← heq]
      rcases hr : (t.build look name).runFrom (m.mark name) with ⟨_ | c, m'⟩ <;>
        · rw [hr] at hpath
          have : m'.building = name :: path := hpath
          refine ⟨rfl, ?_⟩
          simp [this]

/-- **Look-ups end.**  Two look-ups that go deeper than there are declared names left do the same,
    whatever they would do below their depth, and leave the marks as they were. -/
theorem lookUp_agree {t : SymbolTable} {deeper deeper' : String → Analysis ClassInfo}
    {depth depth' : Nat} (h : t.source.unvisited path < depth)
    (h' : t.source.unvisited path < depth') (name : String) :
    Agree path (t.lookUp deeper depth name) (t.lookUp deeper' depth' name) := by
  induction depth generalizing depth' path name with
  | zero => exact absurd h (Nat.not_lt_zero _)
  | succ n ih =>
    cases depth' with
    | zero => exact absurd h' (Nat.not_lt_zero _)
    | succ n' =>
      unfold lookUp
      apply lookUpVia_agree
      intro hp
      apply build_agree
      intro decl hd
      have hlt := SymbolSource.unvisited_cons_lt hp hd
      exact ih (by omega) (by omega)

theorem classInfo_agree {t : SymbolTable} {deeper : String → Analysis ClassInfo} {depth : Nat}
    (h : t.source.classNames.length < depth) (path : List String) (name : String) :
    Agree path (t.lookUp deeper depth name) (t.classInfo name) := by
  have hle := t.source.unvisited_le path
  exact lookUp_agree (by omega) (by omega) name

/-- Looking a class up leaves the marks as they were. -/
theorem building_classInfo (t : SymbolTable) (name : String) (m : Memory) :
    ((t.classInfo name).runFrom m).2.building = m.building := by
  have hlt : t.source.unvisited m.building < t.source.classNames.length + 1 :=
    Nat.lt_succ_of_le (t.source.unvisited_le m.building)
  have hagree : Agree m.building (t.classInfo name) (t.classInfo name) := lookUp_agree hlt hlt name
  exact (hagree m rfl).2

end SymbolTable

end Parts

end PhpCheck
