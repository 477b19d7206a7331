/-
  PhpCheck/Proofs/Classes/Inheritance.lean
  ========================================
  **Inheritance** — what a class has from its parent, whatever extensions add.

  A class has something under each name under which its parent has a member that
  others may inherit: the parent's member, or a version that comes before it.
  Extensions come last and replace nothing, so this holds with them as well, and
  what an extension adds to a class is inherited like any other member.

  The ancestors of a class are its parent and the ancestors of this
  (`Assembles.exists_parent`), so a search up the list of ancestors goes from a
  class to its parent in each step.
-/
import PhpCheck.Proofs.Classes.MemberKind
import PhpCheck.Proofs.LookUp.Success

namespace PhpCheck

open Analysis

/-! ### What extensions add -/

/-- A bound name keeps its binding when new names are bound. -/
theorem NameMap.get?_foldl_insertNew {α : Type} (nameOf : α → String) (values : List α)
    {map : NameMap α} {name : String} {v : α} (h : map.get? name = some v) :
    (values.foldl (fun map w => map.insertNew (nameOf w) w) map).get? name = some v := by
  induction values generalizing map with
  | nil => exact h
  | cons w rest ih =>
    apply ih
    rw [get?_insertNew, h, Option.some_or]

namespace MemberKind

variable {kind : MemberKind} {c : ClassInfo} {name : String} {v : kind.Info}

theorem member?_addProperties (h : kind.member? c name = some v) (ps : List PropertyInfo) :
    kind.member? (c.addProperties ps) name = some v := by
  cases kind with
  | method => exact h
  | property => exact NameMap.get?_foldl_insertNew PropertyInfo.name ps h

theorem member?_addMethods (h : kind.member? c name = some v) (ms : List MethodInfo) :
    kind.member? (c.addMethods ms) name = some v := by
  cases kind with
  | method => exact NameMap.get?_foldl_insertNew (fun m : MethodInfo => m.name) ms h
  | property => exact h

end MemberKind

namespace SymbolTable.Assembles

variable {t : SymbolTable} {p : Program} {C P : String} {c : ClassInfo} {rest : List String}

/-- What a class was assembled with, extensions leave as it is. -/
theorem member?_extended {kind : MemberKind} {name : String} {v : kind.Info} {a b : ClassInfo}
    {xs : List (MemberExtension PropertyInfo)} {ys : List (MemberExtension MethodInfo)}
    (hx : Extended ClassInfo.addProperties xs a b) (hy : Extended ClassInfo.addMethods ys b c)
    (h : kind.member? a name = some v) : kind.member? c name = some v := by
  have hb := hx.preserves (kind.member? · name = some v)
    (fun _ members hc => MemberKind.member?_addProperties hc members) h
  exact hy.preserves (kind.member? · name = some v)
    (fun _ members hc => MemberKind.member?_addMethods hc members) hb

/-! ### The parent -/

/-- The first ancestor of a class is its parent, and the other ancestors are those of the parent.
    Under each name under which the parent has something to inherit, the class has a member. -/
theorem exists_parent (hp : t.source = p.source) (h : t.Assembles C c)
    (hchain : c.ancestors = P :: rest) :
    ∃ parent, t.Assembles P parent ∧ parent.ancestors = rest ∧
      ∀ (kind : MemberKind) {name : String} {v : kind.Info},
        kind.inherited? parent name = some v → ∃ w, kind.member? c name = some w := by
  obtain ⟨-, hd, habove, hx, hy⟩ := h
  rename_i decl info b
  rw [(lineage_eq hx hy).2.1] at hchain
  cases hparent : decl.parent with
  | none =>
    rw [hparent] at hchain
    cases hchain
  | some q =>
    have hq : t.Assembles q (info q) := habove q (ClassDecl.mem_above_of_parent hparent)
    rw [hparent, Option.toList_some, List.flatMap_singleton, hq.name_eq hp] at hchain
    obtain ⟨rfl, hrest⟩ := List.cons.inj hchain
    refine ⟨info q, hq, hrest, ?_⟩
    intro kind name v hv
    have hassembled : (kind.member? (decl.assemble info) name).isSome := by
      rw [MemberKind.member?_assemble, hparent, Option.bind_some, hv]
      simp
    obtain ⟨w, hw⟩ := Option.isSome_iff_exists.mp hassembled
    exact ⟨w, member?_extended hx hy hw⟩

/-- With settled extensions a class that is assembled is the one that each look-up gives. -/
theorem runFrom_eq {m : Memory} (hs : t.Settled) (h : t.Assembles C c) (hm : AtRest t m) :
    ∃ n, (t.classInfo C).runFrom m = (.ok c, n) ∧ AtRest t n := by
  obtain ⟨d, hd, hassembles⟩ := h.found hm
  cases h.unique hs hassembles
  exact ⟨_, Prod.ext hd rfl, (t.classInfo_transparent C).steady.atRest hm⟩

theorem builds (hs : t.Settled) (h : t.Assembles C c) : t.Builds C c := by
  obtain ⟨n, hrun, -⟩ := h.runFrom_eq hs .start
  exact ⟨{}, .start, by rw [hrun]⟩

end SymbolTable.Assembles

/-! ### Names of methods -/

/-- Each method of the class stands under its own name. -/
def ClassInfo.NamesMethods (c : ClassInfo) : Prop :=
  ∀ (name : String) (f : MethodInfo), c.method? name = some f → f.name = name

theorem ClassInfo.NamesMethods.addMethods {c : ClassInfo} (h : c.NamesMethods)
    (ms : List MethodInfo) : (c.addMethods ms).NamesMethods := by
  induction ms generalizing c with
  | nil => exact h
  | cons m rest ih =>
    have hone : ({ c with methods := c.methods.insertNew m.name m } : ClassInfo).NamesMethods := by
      intro name f hf
      have hf : (c.methods.insertNew m.name m).get? name = some f := hf
      rw [NameMap.get?_insertNew] at hf
      rcases Option.or_eq_some_iff.mp hf with hf | ⟨-, hf⟩
      · exact h name f hf
      · obtain ⟨rfl, hm⟩ := Option.ite_none_right_eq_some.mp hf
        cases hm
        rfl
    exact ih hone

theorem ClassDecl.namesMethods_assemble {decl : ClassDecl} {info : String → ClassInfo}
    (h : ∀ above ∈ decl.above, (info above).NamesMethods) :
    (decl.assemble info).NamesMethods := by
  intro name f hf
  have hmember : MemberKind.member? .method (decl.assemble info) name = some f := hf
  have hinherited : ∀ above ∈ decl.above,
      MemberKind.inherited? .method (info above) name = some f → f.name = name := by
    intro above hmem hv
    exact h above hmem name f (Option.filter_eq_some_iff.mp hv).1
  rw [MemberKind.member?_assemble] at hmember
  rcases Option.or_eq_some_iff.mp hmember with hmember | ⟨-, hinterface⟩
  · rcases Option.or_eq_some_iff.mp hmember with hmember | ⟨-, hparent⟩
    · rcases Option.or_eq_some_iff.mp hmember with hown | ⟨-, htrait⟩
      · have hmem : (name, f) ∈ MemberKind.own .method decl :=
          List.mem_reverse.mp (NameMap.mem_of_lookup hown)
        obtain ⟨m, -, hm⟩ := List.mem_map.mp hmem
        cases hm
        rfl
      · obtain ⟨used, hused, htaken⟩ := List.exists_of_findSome?_eq_some htrait
        obtain ⟨g, hg, rfl⟩ := Option.map_eq_some_iff.mp htaken
        exact h used (mem_above_of_trait hused) name g hg
    · obtain ⟨parent, hq, hparent⟩ := Option.bind_eq_some_iff.mp hparent
      exact hinherited parent (mem_above_of_parent hq) hparent
  · obtain ⟨i, hi, hinterface⟩ := List.exists_of_findSome?_eq_some hinterface
    exact hinherited i (mem_above_of_interface hi) hinterface

/-- So it is in every assembled class, by induction on the classes above. -/
theorem SymbolTable.Assembles.namesMethods {t : SymbolTable} {C : String} {c : ClassInfo}
    (h : t.Assembles C c) : c.NamesMethods := by
  induction h with
  | intro _ _ _ hx hy ih =>
    have hproperties : ∀ (c : ClassInfo) (ps : List PropertyInfo),
        c.NamesMethods → (c.addProperties ps).NamesMethods := fun _ _ hc => hc
    have hb := hx.preserves ClassInfo.NamesMethods hproperties (ClassDecl.namesMethods_assemble ih)
    exact hy.preserves ClassInfo.NamesMethods (fun _ members hc => hc.addMethods members) hb

end PhpCheck
