/-
  PhpCheck/Proofs/Env/Junction.lean
  =================================
  **Where many branches meet** — branches are joined two at a time, and what is
  known behind all of them depends neither on the order nor on the grouping.

  What comes of joining some types can be said of all of them at once
  (`PhpType.Joins`), without a word on their order, and it leaves no choice
  (`Joins.unique`).  A tree of joins (`Junction`) keeps to it at every node, so two
  trees over the same branches bind the same variables to the same types.
-/
import Mathlib.Data.List.Basic
import PhpCheck.Env.Basic

namespace PhpCheck

/-! ### Types -/

namespace PhpType

variable {a b t t' : PhpType} {types others : List PhpType}

theorem kind_join_of_eq (h : a.kind = b.kind) : (a.join b).kind = a.kind := by
  rw [join, kind_of, if_pos h]

theorem kind_join_of_ne (h : a.kind ≠ b.kind) : (a.join b).kind = .mixed := by
  rw [join, kind_of, if_neg h]

theorem nullable_join (a b : PhpType) : (a.join b).nullable = (a.nullable || b.nullable) := by
  rw [join, nullable_of]
  by_cases hk : a.kind = b.kind
  · by_cases hnull : a.kind = .null
    · simp [a.null_nullable hnull]
    · simp [hk, hk ▸ hnull]
  · simp [hk]

/-- What comes of joining some types: the kind that all of them have, or `mixed`, with null if one
    of them allows it. -/
structure Joins (types : List PhpType) (t : PhpType) : Prop where
  common : ∀ {kind : Kind}, (∀ u ∈ types, u.kind = kind) → t.kind = kind
  different : (¬ ∃ kind, ∀ u ∈ types, u.kind = kind) → t.kind = .mixed
  nullable : t.nullable = true ↔ ∃ u ∈ types, u.nullable = true

namespace Joins

theorem single (t : PhpType) : Joins [t] t where
  common h := h t List.mem_cons_self
  different h := absurd ⟨t.kind, by simp⟩ h
  nullable := by simp

theorem unique (h : Joins types t) (h' : Joins types t') : t = t' := by
  refine eq_of_kind_nullable ?_ ?_
  · by_cases hcommon : ∃ kind, ∀ u ∈ types, u.kind = kind
    · obtain ⟨kind, hkind⟩ := hcommon
      rw [h.common hkind, h'.common hkind]
    · rw [h.different hcommon, h'.different hcommon]
  · rw [Bool.eq_iff_iff, h.nullable, h'.nullable]

/-- Neither the order of the types counts nor how often one comes. -/
theorem congr (h : Joins types t) (hsame : ∀ u, u ∈ types ↔ u ∈ others) : Joins others t where
  common hkind := h.common fun u hu => hkind u ((hsame u).mp hu)
  different hne := h.different fun ⟨kind, hkind⟩ =>
    hne ⟨kind, fun u hu => hkind u ((hsame u).mpr hu)⟩
  nullable := by simp only [h.nullable, hsame]

/-- A join of two joins is one of all that went into them. -/
theorem append (ha : Joins types a) (hb : Joins others b) : Joins (types ++ others) (a.join b) where
  common := by
    intro kind hkind
    have hka := ha.common fun u hu => hkind u (List.mem_append_left _ hu)
    have hkb := hb.common fun u hu => hkind u (List.mem_append_right _ hu)
    rw [kind_join_of_eq (hka.trans hkb.symm), hka]
  different := by
    intro hne
    by_cases hk : a.kind = b.kind
    · rw [kind_join_of_eq hk]
      -- If the types on each side have a kind in common, it is not the same one on both.
      by_cases hcommon : ∃ kind, ∀ u ∈ types, u.kind = kind
      · obtain ⟨kind, hkind⟩ := hcommon
        have hka := ha.common hkind
        rw [hk]
        refine hb.different ?_
        rintro ⟨kind', hkind'⟩
        have hkb := hb.common hkind'
        refine hne ⟨kind, fun u hu => ?_⟩
        rcases List.mem_append.mp hu with hu | hu
        · exact hkind u hu
        · rw [hkind' u hu, ← hkb, ← hk, hka]
      · exact ha.different hcommon
    · exact kind_join_of_ne hk
  nullable := by
    rw [nullable_join, Bool.or_eq_true, ha.nullable, hb.nullable]
    simp only [List.mem_append, or_and_right, exists_or]

/-- A value of one of the types can be passed where the join is declared. -/
theorem accepts (h : Joins types t) {u : PhpType} (hu : u ∈ types) : t.accepts u = true := by
  by_cases hcommon : ∃ kind, ∀ u ∈ types, u.kind = kind
  · obtain ⟨kind, hkind⟩ := hcommon
    have hk : u.kind = t.kind := (hkind u hu).trans (h.common hkind).symm
    have hself := t.accepts_self
    unfold PhpType.accepts isMixed at hself ⊢
    rw [hk]
    exact hself
  · simp [PhpType.accepts, isMixed, h.different hcommon]

end Joins

end PhpType

/-! ### Junctions -/

theorem Env.hasVariable_intersect (e other : Env) (name : String) :
    (e.intersect other).hasVariable name = (e.hasVariable name && other.hasVariable name) := by
  have hbound : ∀ e : Env, e.hasVariable name = (e.bound? name).isSome := fun _ => rfl
  rw [hbound, hbound, hbound, bound?_intersect]
  cases e.bound? name with
  | none => rfl
  | some a => cases other.bound? name <;> rfl

/-- Branches that are joined two at a time. -/
inductive Junction where
  | branch (e : Env)
  | meet (left right : Junction)

namespace Junction

def branches : Junction → List Env
  | branch e => [e]
  | meet left right => left.branches ++ right.branches

/-- What is known behind the branches. -/
def env : Junction → Env
  | branch e => e
  | meet left right => left.env.intersect right.env

/-- The junction that takes in one branch after the other. -/
def oneByOne (e : Env) (es : List Env) : Junction :=
  es.foldl (fun j b => .meet j (.branch b)) (.branch e)

theorem branches_oneByOne (e : Env) (es : List Env) : (oneByOne e es).branches = e :: es := by
  have hfold : ∀ j : Junction,
      (es.foldl (fun j b => .meet j (.branch b)) j).branches = j.branches ++ es := by
    induction es with
    | nil => simp
    | cons b rest ih => simp [ih, branches]
  exact hfold (.branch e)

theorem env_oneByOne (e : Env) (es : List Env) :
    (oneByOne e es).env = es.foldl Env.intersect e := by
  have hfold : ∀ j : Junction,
      (es.foldl (fun j b => .meet j (.branch b)) j).env = es.foldl Env.intersect j.env := by
    induction es with
    | nil => simp
    | cons b rest ih => simp [ih, env]
  exact hfold (.branch e)

variable {name : String}

theorem hasVariable_env (j : Junction) :
    j.env.hasVariable name = true ↔ ∀ e ∈ j.branches, e.hasVariable name = true := by
  induction j with
  | branch e => simp [env, branches]
  | meet left right ihl ihr =>
    rw [env, Env.hasVariable_intersect, Bool.and_eq_true, ihl, ihr, branches]
    simp only [List.mem_append, or_imp, forall_and]

/-- A variable has the join of the types that it has in the branches, by induction on the tree. -/
theorem joins_env {j : Junction} {t : PhpType} (h : j.env.bound? name = some t) :
    PhpType.Joins (j.branches.filterMap (·.bound? name)) t := by
  induction j generalizing t with
  | branch e =>
    have htypes : (branch e).branches.filterMap (·.bound? name) = [t] := by
      rw [env] at h
      simp [branches, h]
    rw [htypes]
    exact .single t
  | meet left right ihl ihr =>
    rw [env, Env.bound?_intersect] at h
    obtain ⟨a, ha, h⟩ := Option.bind_eq_some_iff.mp h
    obtain ⟨b, hb, rfl⟩ := Option.map_eq_some_iff.mp h
    rw [branches, List.filterMap_append]
    exact (ihl ha).append (ihr hb)

/-- What is known of a variable behind the branches depends on which branches there are. -/
theorem bound?_env_congr {j k : Junction} (h : ∀ e, e ∈ j.branches ↔ e ∈ k.branches) :
    j.env.bound? name = k.env.bound? name := by
  have hsame : j.env.hasVariable name = k.env.hasVariable name := by
    rw [Bool.eq_iff_iff, hasVariable_env, hasVariable_env]
    simp only [h]
  have hsome : (j.env.bound? name).isSome = (k.env.bound? name).isSome := hsame
  cases hj : j.env.bound? name with
  | none =>
    rw [hj] at hsome
    exact (Option.isNone_iff_eq_none.mp (by simpa using hsome.symm)).symm
  | some t =>
    rw [hj] at hsome
    obtain ⟨u, hu⟩ := Option.isSome_iff_exists.mp hsome.symm
    have htypes : PhpType.Joins (k.branches.filterMap (·.bound? name)) t := by
      refine (joins_env hj).congr fun v => ?_
      simp only [List.mem_filterMap, h]
    rw [hu, htypes.unique (joins_env hu)]

/-- **Neither order nor grouping counts where branches meet.**  However some branches are joined
    two at a time, each variable is known as it is if they are joined one after the other: it is
    bound if all branches bind it, to the kind that it has in all of them or else to `mixed`, with
    null if one branch allows it, and all its types in the branches can be passed there. -/
theorem bound?_env_of_perm {j : Junction} {e : Env} {es : List Env}
    (h : j.branches.Perm (e :: es)) (name : String) :
    j.env.bound? name = (es.foldl Env.intersect e).bound? name ∧
      (j.env.hasVariable name = true ↔ ∀ b ∈ e :: es, b.hasVariable name = true) ∧
      ∀ {t : PhpType}, j.env.bound? name = some t →
        PhpType.Joins ((e :: es).filterMap (·.bound? name)) t ∧
        ∀ b ∈ e :: es, ∀ {u : PhpType}, b.bound? name = some u → t.accepts u = true := by
  refine ⟨?_, ?_, ?_⟩
  · rw [← env_oneByOne]
    refine bound?_env_congr fun b => ?_
    rw [branches_oneByOne, h.mem_iff]
  · rw [hasVariable_env]
    simp only [h.mem_iff]
  · intro t ht
    have htypes : PhpType.Joins ((e :: es).filterMap (·.bound? name)) t := by
      refine (joins_env ht).congr fun u => ?_
      simp only [List.mem_filterMap, h.mem_iff]
    refine ⟨htypes, ?_⟩
    intro b hb u hu
    exact htypes.accepts (List.mem_filterMap.mpr ⟨b, hb, hu⟩)

/-- After a loop that counts, one that stops early and one that finds nothing. -/
def threeWays (n : Nat) : Env :=
  { file := "loop.php",
    bindings := .ofList [("count", .of .integer false),
      ("found", if n = 2 then .null else .object "Item" (decide (n = 1)))] }

/-- Two groupings of three branches, in different orders. -/
theorem threeWays_meet :
    let j := meet (branch (threeWays 2)) (meet (branch (threeWays 0)) (branch (threeWays 1)))
    j.branches.Perm [threeWays 0, threeWays 1, threeWays 2] ∧
      j.env.bound? "count" = some (.of .integer false) ∧
      j.env.bound? "found" = some (.mixed true) ∧
      (([threeWays 1, threeWays 2].foldl Env.intersect (threeWays 0)).bound? "found")
        = some (.mixed true) ∧
      (PhpType.mixed true).accepts .null = true := by
  intro j
  have hperm : j.branches.Perm [threeWays 0, threeWays 1, threeWays 2] :=
    (List.Perm.swap _ _ _).trans (.cons _ (.swap _ _ _))
  have hfound : j.env.bound? "found" = some (.mixed true) := by decide
  have hall := bound?_env_of_perm hperm "found"
  exact ⟨hperm, by decide, hfound, hall.1.symm.trans hfound,
    (hall.2.2 hfound).2 (threeWays 2) (by simp) rfl⟩

end Junction

end PhpCheck
