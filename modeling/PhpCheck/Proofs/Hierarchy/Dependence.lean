/-
  PhpCheck/Proofs/Hierarchy/Dependence.lean
  =========================================
  **Class hierarchies as graphs** — which classes a class is put together from,
  and what stands in the way of putting it together.

  A class depends on its traits, its parent and its interfaces
  (`SymbolSource.DependsOn`).  It can be put together when everything it reaches
  can be loaded and nothing it reaches comes back to itself (`Grounded`).

  `obstacle` is the search that decides this: it walks up from a class,
  remembers the path it came by, and stops at the first failure.  It ends
  because the path never has a name twice and each name on it is declared.
  `obstacle_eq_none_iff` ties the search to the graph.  The search knows nothing
  of what a symbol table remembers, so it says what a look-up answers when
  nothing is remembered.
-/
import Mathlib.Logic.Relation
import PhpCheck.Symbols.Failure
import PhpCheck.Symbols.Source

namespace PhpCheck

/-- The classes whose members a class takes, in the order in which they are looked up. -/
def ClassDecl.above (c : ClassDecl) : List String := c.traits ++ c.parent.toList ++ c.interfaces

namespace ClassDecl

variable {c : ClassDecl} {k : String}

theorem mem_above_of_trait (h : k ∈ c.traits) : k ∈ c.above :=
  List.mem_append_left _ (List.mem_append_left _ h)

theorem mem_above_of_parent (h : c.parent = some k) : k ∈ c.above :=
  List.mem_append_left _ (List.mem_append_right _ (Option.mem_toList.mpr h))

theorem mem_above_of_interface (h : k ∈ c.interfaces) : k ∈ c.above :=
  List.mem_append_right _ h

end ClassDecl

namespace SymbolSource

variable {s : SymbolSource} {name above k : String} {path : List String}

/-! ### Dependence -/

def DependsOn (s : SymbolSource) (name above : String) : Prop :=
  ∃ c, s.class? name = some c ∧ above ∈ c.above

/-- A class reaches itself and all it depends on, directly or through others. -/
abbrev Reaches (s : SymbolSource) : String → String → Prop := Relation.ReflTransGen s.DependsOn

def Circular (s : SymbolSource) (name : String) : Prop := Relation.TransGen s.DependsOn name name

def Loadable (s : SymbolSource) (name : String) : Prop :=
  s.classExists name = .ok true ∧ (s.class? name).isSome

/-- All that a class reaches can be loaded, and nothing that it reaches is above itself. -/
def Grounded (s : SymbolSource) (name : String) : Prop :=
  ∀ k, s.Reaches name k → s.Loadable k ∧ ¬ s.Circular k

theorem Grounded.of_dependsOn (h : s.Grounded name) (hd : s.DependsOn name above) :
    s.Grounded above := by
  intro k hk
  exact h k (.head hd hk)

theorem Grounded.not_reaches (h : s.Grounded name) (hd : s.DependsOn name above) :
    ¬ s.Reaches above name := by
  intro hr
  exact (h name .refl).2 (Relation.TransGen.head' hd hr)

/-- A class is grounded as soon as it can be loaded and all it depends on is grounded. -/
theorem Grounded.intro (hl : s.Loadable name)
    (h : ∀ above, s.DependsOn name above → s.Grounded above) : s.Grounded name := by
  intro k hk
  rcases hk.cases_head with rfl | ⟨above, hd, hr⟩
  · refine ⟨hl, ?_⟩
    intro hc
    -- The first step of a way back to `name` leads to a grounded class that reaches `name`.
    obtain ⟨above, hd, hr⟩ := Relation.TransGen.head'_iff.mp hc
    exact (h above hd name hr).2 hc
  · exact h above hd k hr

/-! ### The search for an obstacle -/

/-- How many declared names are not on a path. -/
def unvisited (s : SymbolSource) (path : List String) : Nat :=
  (s.classNames.filter fun name => decide (name ∉ path)).length

theorem unvisited_le (s : SymbolSource) (path : List String) :
    s.unvisited path ≤ s.classNames.length :=
  List.length_filter_le _ _

/-- A path that goes on to a declared name leaves fewer names. -/
theorem unvisited_cons_lt {c : ClassDecl} (hp : name ∉ path) (hd : s.class? name = some c) :
    s.unvisited (name :: path) < s.unvisited path := by
  have hmem : name ∈ s.classNames := s.mem_classNames (by simp [hd])
  have hsub : (s.classNames.filter fun k => decide (k ∉ name :: path))
      = (s.classNames.filter fun k => decide (k ∉ path)).filter fun k => decide (k ≠ name) := by
    rw [List.filter_filter]
    apply List.filter_congr
    intro k _
    simp
  unfold unvisited
  rw [hsub]
  apply List.length_filter_lt_length_iff_exists.mpr
  exact ⟨name, by simp [hmem, hp], by simp⟩

/-- What stands in the way of a class that is reached by a path, if anything does. -/
def obstacle (s : SymbolSource) (path : List String) (name : String) : Option Failure :=
  match s.classExists name with
  | .error reason => some (.classLoading name reason)
  | .ok false => some (.classNotFound name)
  | .ok true =>
    if _hp : name ∈ path then some (.circularHierarchy name)
    else match _hd : s.class? name with
      | none => some (.classNotFound name)
      | some c => c.above.findSome? fun above => s.obstacle (name :: path) above
termination_by s.unvisited path
decreasing_by exact unvisited_cons_lt _hp _hd

theorem obstacle_of_mem (he : s.classExists name = .ok true) (hp : name ∈ path) :
    s.obstacle path name = some (.circularHierarchy name) := by
  rw [obstacle, he]
  simp [hp]

theorem obstacle_of_undeclared (he : s.classExists name = .ok true) (hp : name ∉ path)
    (hd : s.class? name = none) : s.obstacle path name = some (.classNotFound name) := by
  rw [obstacle, he]
  simp only [hp, ↓reduceDIte]
  split
  · rfl
  · rename_i c hs
    rw [hd] at hs
    cases hs

theorem obstacle_eq_findSome? {c : ClassDecl} (he : s.classExists name = .ok true)
    (hp : name ∉ path) (hd : s.class? name = some c) :
    s.obstacle path name = c.above.findSome? (s.obstacle (name :: path)) := by
  rw [obstacle, he]
  simp only [hp, ↓reduceDIte]
  split
  · rename_i hn
    rw [hd] at hn
    cases hn
  · rename_i d hs
    rw [hd] at hs
    cases hs
    rfl

/-- Without an obstacle a class can be loaded, was not met before, and nothing it depends on
    meets an obstacle. -/
theorem obstacle_eq_none_step (h : s.obstacle path name = none) :
    s.Loadable name ∧ name ∉ path ∧
      ∀ above, s.DependsOn name above → s.obstacle (name :: path) above = none := by
  rw [obstacle] at h
  split at h
  · cases h
  · cases h
  · rename_i he
    split at h
    · cases h
    · rename_i hp
      split at h
      · cases h
      · rename_i c hd
        refine ⟨⟨he, by simp [hd]⟩, hp, ?_⟩
        rintro above ⟨d, hd', hmem⟩
        cases hd.symm.trans hd'
        exact List.findSome?_eq_none_iff.mp h above hmem

theorem grounded_of_obstacle_eq_none (h : s.obstacle path name = none) :
    s.Grounded name ∧ ∀ k, s.Reaches name k → k ∉ path := by
  induction hn : s.unvisited path using Nat.strongRecOn generalizing path name with
  | _ n ih =>
    obtain ⟨hl, hp, habove⟩ := obstacle_eq_none_step h
    obtain ⟨c, hd⟩ := Option.isSome_iff_exists.mp hl.2
    have hlt : s.unvisited (name :: path) < n := hn ▸ unvisited_cons_lt hp hd
    have step : ∀ above, s.DependsOn name above →
        s.Grounded above ∧ ∀ k, s.Reaches above k → k ∉ name :: path := by
      intro above ha
      exact ih _ hlt (habove above ha) rfl
    refine ⟨.intro hl fun above ha => (step above ha).1, ?_⟩
    intro k hk
    rcases hk.cases_head with rfl | ⟨above, ha, hr⟩
    · exact hp
    · intro hmem
      exact (step above ha).2 k hr (List.mem_cons_of_mem _ hmem)

theorem obstacle_eq_none_of_grounded (h : s.Grounded name)
    (hp : ∀ k, s.Reaches name k → k ∉ path) : s.obstacle path name = none := by
  induction hn : s.unvisited path using Nat.strongRecOn generalizing path name with
  | _ n ih =>
    obtain ⟨he, hs⟩ := (h name .refl).1
    obtain ⟨c, hd⟩ := Option.isSome_iff_exists.mp hs
    have hnp : name ∉ path := hp name .refl
    rw [obstacle_eq_findSome? he hnp hd, List.findSome?_eq_none_iff]
    intro above hmem
    have ha : s.DependsOn name above := ⟨c, hd, hmem⟩
    refine ih _ (hn ▸ unvisited_cons_lt hnp hd) (h.of_dependsOn ha) ?_ rfl
    intro k hk
    rw [List.mem_cons, not_or]
    refine ⟨?_, hp k (.head ha hk)⟩
    rintro rfl
    exact h.not_reaches ha hk

/-- **The search is exact.**  Nothing stands in the way of a class just when it is grounded and
    reaches no class of the path. -/
theorem obstacle_eq_none_iff :
    s.obstacle path name = none ↔ s.Grounded name ∧ ∀ k, s.Reaches name k → k ∉ path :=
  ⟨grounded_of_obstacle_eq_none, fun h => obstacle_eq_none_of_grounded h.1 h.2⟩

end SymbolSource

end PhpCheck
