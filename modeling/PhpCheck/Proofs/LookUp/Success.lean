/-
  PhpCheck/Proofs/LookUp/Success.lean
  ===================================
  **When a class can be looked up** — a look-up ends, and it succeeds just when
  everything above the class can be loaded and nothing above it is above itself.

  The graph of the declarations decides alone (`classInfo_succeeds_iff`): what
  was looked up before and what extensions do have no part in it.  That a
  look-up ends is said without a clock.  It solves the equation of an unbounded
  search, and a bound above the number of declared classes is never met, since
  what a look-up would do there makes no difference.
-/
import PhpCheck.Proofs.LookUp.Depth
import PhpCheck.Proofs.LookUp.Query

namespace PhpCheck

open Analysis

namespace Program

theorem loadable_iff {p : Program} {name : String} :
    p.source.Loadable name ↔ p.classes.contains name = true ∧ p.faults.get? name = none := by
  have hclass : (p.source.class? name).isSome = p.classes.contains name := rfl
  have hexists : p.source.classExists name = p.classExists name := rfl
  rw [SymbolSource.Loadable, hclass, hexists, classExists]
  cases p.faults.get? name with
  | none =>
    cases p.classes.contains name <;> simp
  | some reason => simp

theorem length_classNames (p : Program) : p.source.classNames.length = p.classCount :=
  List.length_map _

end Program

namespace SymbolTable

variable {t : SymbolTable} {m : Memory} {p : Program}

/-- A look-up of a class looks up the classes above it in the same way. -/
theorem runFrom_classInfo (t : SymbolTable) (name : String) (m : Memory) :
    (t.classInfo name).runFrom m = (t.lookUpVia t.classInfo name).runFrom m := by
  have hone : t.source.classNames.length < t.source.classNames.length + 1 := by omega
  have htwo : t.source.classNames.length < t.source.classNames.length + 2 := by omega
  -- A look-up that is one deeper than enough is a step above one that is deep enough.
  have hstep : Agree m.building (t.lookUp t.classInfo (t.source.classNames.length + 2) name)
      (t.lookUpVia t.classInfo name) := by
    apply lookUpVia_agree
    intro _
    apply build_agree
    intro _ _ k
    exact classInfo_agree hone _ k
  have hsame : Agree m.building (t.lookUp t.classInfo (t.source.classNames.length + 2) name)
      (t.classInfo name) := classInfo_agree htwo _ name
  rw [← (hsame m rfl).1, (hstep m rfl).1]

/-- What can be looked up exists. -/
theorem runFrom_classInfo?_of_ok {m' : Memory} {name : String} {c : ClassInfo}
    (h : (t.classInfo name).runFrom m = (.ok c, m')) :
    (t.classInfo? name).runFrom m = (.ok (some c), m') := by
  have hexists : (t.hasClass name).runFrom m = (.ok true, m) := by
    rw [runFrom_classInfo, runFrom_lookUpVia] at h
    rw [runFrom_hasClass, NameMap.contains_eq_isSome]
    cases hc : m.classes.get? name with
    | some d => simp
    | none =>
      rw [hc] at h
      cases he : t.source.classExists name with
      | error reason => simp [he] at h
      | ok known =>
        cases known with
        | false => simp [he] at h
        | true => rfl
  rw [classInfo?, runFrom_bind_ok hexists, if_pos rfl, map_eq_pure_bind, runFrom_bind_ok h]
  rfl

/-- What is found was looked up. -/
theorem runFrom_classInfo_of_some {m' : Memory} {name : String} {c : ClassInfo}
    (h : (t.classInfo? name).runFrom m = (.ok (some c), m')) :
    (t.classInfo name).runFrom m = (.ok c, m') := by
  rw [classInfo?] at h
  rcases hexists : (t.hasClass name).runFrom m with ⟨cause | known, n⟩
  · rw [runFrom_bind_error hexists] at h
    cases h
  · rw [runFrom_bind_ok hexists] at h
    rw [runFrom_hasClass] at hexists
    obtain ⟨-, rfl⟩ := Prod.mk.inj hexists
    cases known with
    | false => cases h
    | true =>
      rw [if_pos rfl, map_eq_pure_bind] at h
      rcases hr : (t.classInfo name).runFrom m with ⟨cause | d, n'⟩
      · rw [runFrom_bind_error hr] at h
        cases h
      · rw [runFrom_bind_ok hr] at h
        cases h
        rfl

theorem classInfo_ok_iff_grounded (hm : AtRest t m) (name : String) :
    (∃ c, ((t.classInfo name).runFrom m).1 = .ok c) ↔ t.source.Grounded name := by
  have hgives := classInfo_gives name hm.faithful
  have hexact : t.source.obstacle [] name = none ↔
      t.source.Grounded name ∧ ∀ k, t.source.Reaches name k → k ∉ [] :=
    SymbolSource.obstacle_eq_none_iff
  rw [hm.idle] at hgives
  cases hr : ((t.classInfo name).runFrom m).1 with
  | ok c =>
    rw [hr] at hgives
    exact ⟨fun _ => (hexact.mp hgives.1).1, fun _ => ⟨c, rfl⟩⟩
  | error cause =>
    rw [hr] at hgives
    have hsome : t.source.obstacle [] name = some cause := hgives
    constructor
    · rintro ⟨c, hc⟩
      cases hc
    · intro hg
      rw [hexact.mpr ⟨hg, by simp⟩] at hsome
      cases hsome

theorem get?_classes_of_error (hm : Faithful t m) {name : String} {cause : Failure}
    (h : ((t.classInfo name).runFrom m).1 = .error cause) :
    ((t.classInfo name).runFrom m).2.classes.get? name = none := by
  obtain ⟨hm', hg, hfound⟩ := t.classInfo_finds m.building name m hm rfl
  rw [h] at hfound
  have hsome : t.source.obstacle m.building name = some cause := hfound
  cases hc : ((t.classInfo name).runFrom m).2.classes.get? name with
  | none => rfl
  | some c =>
    have hnone := hm'.obstacle_eq_none hc
    rw [hg.building, hsome] at hnone
    cases hnone

/-- **When a class can be looked up.**  After any queries a look-up ends: it solves the equation
    of the unbounded search, and a depth above the number of classes is never used up.  It
    succeeds just when all classes that the class reaches are declared and free of faults and none
    of them is above itself.  It leaves the marks as they were, and a failure is not remembered. -/
theorem classInfo_succeeds_iff (hp : t.source = p.source) (h : t.Reachable m) (name : String) :
    ((t.classInfo name).runFrom m = (t.lookUpVia t.classInfo name).runFrom m ∧
      ∀ (deeper : String → Analysis ClassInfo) (depth : Nat), p.classCount < depth →
        (t.lookUp deeper depth name).runFrom m = (t.classInfo name).runFrom m) ∧
    ((∃ c, ((t.classInfo name).runFrom m).1 = .ok c) ↔
      ∀ k, p.source.Reaches name k →
        (p.classes.contains k = true ∧ p.faults.get? k = none) ∧ ¬ p.source.Circular k) ∧
    ((t.classInfo name).runFrom m).2.building = m.building ∧
    ∀ cause, ((t.classInfo name).runFrom m).1 = .error cause →
      ((t.classInfo name).runFrom m).2.classes.get? name = none := by
  have hm : AtRest t m := h.atRest hp
  refine ⟨⟨t.runFrom_classInfo name m, ?_⟩, ?_, t.building_classInfo name m, ?_⟩
  · intro deeper depth hdepth
    have hlt : t.source.classNames.length < depth := by
      rw [hp, p.length_classNames]
      exact hdepth
    exact (classInfo_agree hlt m.building name m rfl).1
  · rw [classInfo_ok_iff_grounded hm name, hp]
    simp only [SymbolSource.Grounded, Program.loadable_iff]
  · intro cause hr
    exact get?_classes_of_error hm.faithful hr

/-! ### Classes that are built -/

/-- After some queries the class is looked up, and this is what comes of it. -/
def Builds (t : SymbolTable) (name : String) (c : ClassInfo) : Prop :=
  ∃ m, t.Reachable m ∧ ((t.classInfo name).runFrom m).1 = .ok c

theorem Builds.assembles (hp : t.source = p.source) {name : String} {c : ClassInfo}
    (h : t.Builds name c) : t.Assembles name c := by
  obtain ⟨m, hreach, hr⟩ := h
  exact assembles_of_ok (hreach.atRest hp).faithful hr

/-- A class that was assembled once is found whenever it is looked up, though perhaps with other
    members from extensions. -/
theorem Assembles.found (hm : AtRest t m) {name : String} {c : ClassInfo}
    (h : t.Assembles name c) :
    ∃ d, ((t.classInfo name).runFrom m).1 = .ok d ∧ t.Assembles name d := by
  obtain ⟨d, hr⟩ := (classInfo_ok_iff_grounded hm name).mpr h.grounded
  exact ⟨d, hr, assembles_of_ok hm.faithful hr⟩

end SymbolTable

/-- After a failure the dog is found, so nothing that it reaches is a snake. -/
theorem kennel_succeeds_iff :
    ∃ m, cloneable.Reachable m ∧
      ((cloneable.classInfo "Snake").runFrom m).1 = .error (.circularHierarchy "Snake") ∧
      (∃ c, ((cloneable.classInfo "Dog").runFrom m).1 = .ok c) ∧
      ∀ k, kennel.source.Reaches "Dog" k →
        (kennel.classes.contains k = true ∧ kennel.faults.get? k = none) ∧
          ¬ kennel.source.Circular k := by
  have hreach : cloneable.Reachable ((cloneable.ask (.classInfo "Snake")).runFrom {}).2 :=
    .ask _ .start
  have hdog := (SymbolTable.classInfo_succeeds_iff rfl hreach "Dog").2.1
  exact ⟨_, hreach, rfl, ⟨_, rfl⟩, hdog.mp ⟨_, rfl⟩⟩

end PhpCheck
