/-
  PhpCheck/Proofs/Classes/Override.lean
  =====================================
  **Overriding** — which version of a member a class has.

  A class has a version of its own of a member when it declares the member or
  uses a trait that has it (`version?`).  Of the class and its ancestors, the
  nearest one with a version decides: if others may inherit it the class has
  just that version, and if it is private elsewhere the class has at most what
  an interface declares.  So a private version hides a public one further up.

  A class takes from its parent and its interfaces at every level, and an
  interface of an ancestor comes to it through that ancestor's members.  So the
  induction (`Overrides.below`) carries both halves: what is visible of an
  ancestor is either the deciding version or comes from an interface.
-/
import PhpCheck.Proofs.Classes.MemberKind
import PhpCheck.Proofs.LookUp.Success

namespace PhpCheck

open Analysis

namespace SymbolTable

variable {t : SymbolTable} {p : Program} {kind : MemberKind} {C K name : String} {c : ClassInfo}

/-! ### Versions -/

def built? (t : SymbolTable) (name : String) : Option ClassInfo :=
  ((t.classInfo name).runFrom {}).1.toOption

/-- The version of a member that a class has by itself: its last own declaration, or else that of
    its first trait that has the member, as a member of the class. -/
def version? (t : SymbolTable) (kind : MemberKind) (className name : String) :
    Option kind.Info :=
  (t.source.class? className).bind fun decl =>
    (kind.own? decl name).or (decl.traits.findSome? fun used =>
      (t.built? used).bind fun trait =>
        (kind.member? trait name).map (kind.moved used className))

/-- The first class of a chain that has a version, with its version. -/
def nearest? (t : SymbolTable) (kind : MemberKind) (chain : List String) (name : String) :
    Option (String × kind.Info) :=
  chain.findSome? fun className => (t.version? kind className name).map (className, ·)

theorem declaringClass_version? (hp : t.source = p.source) {v : kind.Info}
    (h : t.version? kind K name = some v) : kind.declaringClass v = K := by
  obtain ⟨decl, hd, hv⟩ := Option.bind_eq_some_iff.mp h
  rw [hp] at hd
  rcases Option.or_eq_some_iff.mp hv with hown | ⟨-, htrait⟩
  · rw [MemberKind.declaringClass_own? hown]
    exact p.named hd
  · obtain ⟨used, _, hused⟩ := List.exists_of_findSome?_eq_some htrait
    obtain ⟨trait, _, hmap⟩ := Option.bind_eq_some_iff.mp hused
    obtain ⟨w, _, rfl⟩ := Option.map_eq_some_iff.mp hmap
    exact MemberKind.declaringClass_moved

theorem nearest?_cons_of_some {chain : List String} {v : kind.Info}
    (h : t.version? kind C name = some v) : t.nearest? kind (C :: chain) name = some (C, v) := by
  simp [nearest?, h]

theorem nearest?_cons_of_none {chain : List String} (h : t.version? kind C name = none) :
    t.nearest? kind (C :: chain) name = t.nearest? kind chain name := by
  simp [nearest?, h]

theorem mem_of_nearest? {chain : List String} {v : kind.Info}
    (h : t.nearest? kind chain name = some (K, v)) :
    K ∈ chain ∧ t.version? kind K name = some v := by
  obtain ⟨k, hk, hmap⟩ := List.exists_of_findSome?_eq_some h
  obtain ⟨w, hw, heq⟩ := Option.map_eq_some_iff.mp hmap
  cases heq
  exact ⟨hk, hw⟩

/-! ### Classes without extensions -/

theorem Assembles.built? (hu : t.Unextended) (h : t.Assembles name c) :
    t.built? name = some c := by
  obtain ⟨d, hr, hd⟩ := h.found (.start)
  rw [SymbolTable.built?, hr, hd.unique hu.settled h]
  rfl

theorem eq_assemble (hu : t.Unextended) {decl : ClassDecl} {info : String → ClassInfo}
    {b : ClassInfo} (hx : Extended ClassInfo.addProperties t.propertyExtensions (decl.assemble info) b)
    (hy : Extended ClassInfo.addMethods t.methodExtensions b c) : c = decl.assemble info := by
  rw [hu.properties] at hx
  rw [hu.methods] at hy
  cases hx
  cases hy
  rfl

/-- The version of a class, in terms of the classes above it. -/
theorem version?_eq (hu : t.Unextended) (hp : t.source = p.source) {decl : ClassDecl}
    {info : String → ClassInfo} (hd : t.source.class? C = some decl)
    (habove : ∀ above ∈ decl.above, t.Assembles above (info above)) :
    t.version? kind C name = (kind.own? decl name).or (decl.traits.findSome? fun used =>
      (kind.member? (info used) name).map (kind.moved (info used).name decl.name)) := by
  have hname : decl.name = C := by
    rw [hp] at hd
    exact p.named hd
  have htraits : ∀ used ∈ decl.traits,
      ((t.built? used).bind fun trait => (kind.member? trait name).map (kind.moved used C))
        = (kind.member? (info used) name).map (kind.moved (info used).name decl.name) := by
    intro used hmem
    have hused := habove used (ClassDecl.mem_above_of_trait hmem)
    rw [hused.built? hu, hused.name_eq hp, hname]
    rfl
  rw [version?, hd, Option.bind_some, ← List.head?_filterMap, List.filterMap_congr htraits,
    List.head?_filterMap]

/-! ### The law -/

/-- What a class has under a name, by the nearest version in its chain: this version if it can be
    seen from the class, and otherwise at most the version of an interface. -/
structure Overrides (t : SymbolTable) (kind : MemberKind) (name C : String) (c : ClassInfo) :
    Prop where
  nearest : ∀ {K : String} {v : kind.Info},
    t.nearest? kind (C :: c.ancestors) name = some (K, v) → K = C ∨ kind.isPrivate v = false →
    kind.member? c name = some v
  otherwise : (∀ {K : String} {v : kind.Info},
      t.nearest? kind (C :: c.ancestors) name = some (K, v) →
      K ≠ C ∧ kind.isPrivate v = true) →
    ∀ {f : kind.Info}, kind.member? c name = some f →
      ∃ i ∈ c.interfaces, t.version? kind i name = some f

namespace Overrides

/-- What is inherited from an interface is the version of this interface or of one above it. -/
theorem of_inherited {j : String} {i : ClassInfo} {f : kind.Info} (h : t.Overrides kind name j i)
    (hnil : i.ancestors = []) (hf : kind.inherited? i name = some f) :
    ∃ k ∈ j :: i.interfaces, t.version? kind k name = some f := by
  have hmember : kind.member? i name = some f := (Option.filter_eq_some_iff.mp hf).1
  cases hv : t.version? kind j name with
  | some v =>
    have hnearest := h.nearest (nearest?_cons_of_some hv) (.inl rfl)
    rw [hmember] at hnearest
    exact ⟨j, List.mem_cons_self, hv.trans hnearest.symm⟩
  | none =>
    have hnone : t.nearest? kind (j :: i.ancestors) name = none := by
      rw [nearest?_cons_of_none hv, hnil]
      rfl
    obtain ⟨k, hk, hversion⟩ := h.otherwise (by simp [hnone]) hmember
    exact ⟨k, List.mem_cons_of_mem _ hk, hversion⟩

/-- A class that has just its own version. -/
theorem of_version {v : kind.Info} (hv : t.version? kind C name = some v)
    (hmember : kind.member? c name = some v) : t.Overrides kind name C c := by
  have hnearest : t.nearest? kind (C :: c.ancestors) name = some (C, v) := nearest?_cons_of_some hv
  constructor
  · intro K w hn _
    cases hnearest.symm.trans hn
    exact hmember
  · intro hprivate
    exact absurd rfl (hprivate hnearest).1

/-- A class without ancestors and without a version of its own. -/
theorem of_interfaces (hnone : t.version? kind C name = none) (hnil : c.ancestors = [])
    (hmember : ∀ {f : kind.Info}, kind.member? c name = some f →
      ∃ i ∈ c.interfaces, t.version? kind i name = some f) :
    t.Overrides kind name C c := by
  have hnearest : t.nearest? kind (C :: c.ancestors) name = none := by
    rw [nearest?_cons_of_none hnone, hnil]
    rfl
  constructor
  · intro K v hn
    rw [hnearest] at hn
    cases hn
  · intro _ f hf
    exact hmember hf

/-- A class without a version of its own below a class that obeys the law, where everything else
    the class has comes from interfaces. -/
theorem below {q : String} {parent : ClassInfo} (h : t.Overrides kind name q parent)
    (hnone : t.version? kind C name = none) (hchain : c.ancestors = q :: parent.ancestors)
    (hnodup : (C :: c.ancestors).Nodup) (hsub : parent.interfaces ⊆ c.interfaces)
    {fallback : Option kind.Info}
    (hmember : kind.member? c name = (kind.inherited? parent name).or fallback)
    (hfallback : ∀ {f : kind.Info}, fallback = some f →
      ∃ i ∈ c.interfaces, t.version? kind i name = some f) :
    t.Overrides kind name C c := by
  have hsame : t.nearest? kind (C :: c.ancestors) name
      = t.nearest? kind (q :: parent.ancestors) name := by
    rw [nearest?_cons_of_none hnone, hchain]
  have hne : ∀ {K : String} {v : kind.Info},
      t.nearest? kind (q :: parent.ancestors) name = some (K, v) → K ≠ C := by
    rintro K v hn rfl
    rw [hchain] at hnodup
    exact (List.nodup_cons.mp hnodup).1 (mem_of_nearest? hn).1
  constructor
  · intro K v hn hor
    rw [hsame] at hn
    have hvisible : kind.isPrivate v = false := hor.resolve_left (hne hn)
    have hinherited : kind.inherited? parent name = some v :=
      Option.filter_eq_some_iff.mpr ⟨h.nearest hn (.inr hvisible), by simp [hvisible]⟩
    rw [hmember, hinherited, Option.some_or]
  · intro hprivate f hf
    rw [hmember] at hf
    rcases Option.or_eq_some_iff.mp hf with hinherited | ⟨-, hf⟩
    · obtain ⟨hparent, hvisible⟩ := Option.filter_eq_some_iff.mp hinherited
      -- What the parent shows is not its own private version, so it comes from an interface.
      have hfar : ∀ {K : String} {v : kind.Info},
          t.nearest? kind (q :: parent.ancestors) name = some (K, v) →
          K ≠ q ∧ kind.isPrivate v = true := by
        intro K v hn
        have hv : kind.isPrivate v = true := (hprivate (hsame.trans hn)).2
        refine ⟨?_, hv⟩
        rintro rfl
        have hown := h.nearest hn (.inl rfl)
        cases hown.symm.trans hparent
        simp [hv] at hvisible
      obtain ⟨i, hi, hversion⟩ := h.otherwise hfar hparent
      exact ⟨i, hsub hi, hversion⟩
    · exact hfallback hf

end Overrides

theorem Assembles.overrides (hu : t.Unextended) (hp : t.source = p.source)
    (hl : t.source.Layered) (h : t.Assembles C c) : t.Overrides kind name C c := by
  induction h with
  | @intro C decl info b c exist hd habove hx hy ih =>
    have hself : t.Assembles C c := .intro exist hd habove hx hy
    obtain ⟨-, hancestors, hinterfaces⟩ := lineage_eq hx hy
    have hmember : kind.member? c name
        = ((t.version? kind C name).or
            (decl.parent.bind fun q => kind.inherited? (info q) name)).or
          (decl.interfaces.findSome? fun j => kind.inherited? (info j) name) := by
      rw [version?_eq hu hp hd habove, eq_assemble hu hx hy, MemberKind.member?_assemble]
    have hfallback : ∀ {f : kind.Info},
        (decl.interfaces.findSome? fun j => kind.inherited? (info j) name) = some f →
        ∃ i ∈ c.interfaces, t.version? kind i name = some f := by
      intro f hf
      obtain ⟨j, hj, hf⟩ := List.exists_of_findSome?_eq_some hf
      have hmem : j ∈ decl.above := ClassDecl.mem_above_of_interface hj
      have hnil : (info j).ancestors = [] :=
        (habove j hmem).ancestors_eq_nil hp hl (.single ⟨decl, hd, hj⟩)
      obtain ⟨k, hk, hversion⟩ := (ih j hmem).of_inherited hnil hf
      refine ⟨k, ?_, hversion⟩
      rw [hinterfaces, List.mem_eraseDups, List.mem_append]
      refine .inr (List.mem_flatMap.mpr ⟨j, hj, ?_⟩)
      rw [(habove j hmem).name_eq hp]
      exact hk
    cases hv : t.version? kind C name with
    | some v =>
      rw [hv, Option.some_or, Option.some_or] at hmember
      exact .of_version hv hmember
    | none =>
      rw [hv, Option.none_or] at hmember
      cases hq : decl.parent with
      | none =>
        rw [hq, Option.bind_none, Option.none_or] at hmember
        rw [hq] at hancestors
        refine .of_interfaces hv hancestors ?_
        intro f hf
        exact hfallback (hmember.symm.trans hf)
      | some q =>
        rw [hq, Option.bind_some] at hmember
        rw [hq] at hancestors hinterfaces
        have hmem : q ∈ decl.above := ClassDecl.mem_above_of_parent hq
        refine (ih q hmem).below hv ?_ ((hself.parentChain hp).nodup hself.grounded) ?_ hmember
          hfallback
        · simpa [(habove q hmem).name_eq hp] using hancestors
        · intro i hi
          rw [hinterfaces]
          simp [hi]

/-- **The law of overriding.**  Of a class and its ancestors the nearest one with a version of a
    member decides.  If the version is that of the class itself or not private, the class has just
    this version, which belongs to the class it is the version of and is no version of any other
    class.  Otherwise the class has at most what an interface declares. -/
theorem nearest_version_overrides (hu : t.Unextended) (hp : t.source = p.source)
    (hl : p.source.Layered) (kind : MemberKind) (name : String) (h : t.Builds C c) :
    (∀ {K : String} {v : kind.Info},
      t.nearest? kind (C :: c.ancestors) name = some (K, v) →
      K = C ∨ kind.isPrivate v = false →
        kind.member? c name = some v ∧ kind.declaringClass v = K ∧
        ∀ L ≠ K, t.version? kind L name ≠ some v) ∧
    ((∀ {K : String} {v : kind.Info},
        t.nearest? kind (C :: c.ancestors) name = some (K, v) →
        K ≠ C ∧ kind.isPrivate v = true) →
      ∀ {f : kind.Info}, kind.member? c name = some f →
        kind.declaringClass f ∈ c.interfaces ∧
        t.version? kind (kind.declaringClass f) name = some f ∧
        ∃ decl, p.class? (kind.declaringClass f) = some decl ∧ decl.kind = .interface) := by
  have hl' : t.source.Layered := hp ▸ hl
  have hc := h.assembles hp
  have hlaw : t.Overrides kind name C c := hc.overrides hu hp hl'
  constructor
  · intro K v hn hor
    have hK := declaringClass_version? hp (mem_of_nearest? hn).2
    refine ⟨hlaw.nearest hn hor, hK, ?_⟩
    intro L hne hL
    exact hne ((declaringClass_version? hp hL).symm.trans hK)
  · intro hprivate f hf
    obtain ⟨i, hi, hversion⟩ := hlaw.otherwise hprivate hf
    rw [declaringClass_version? hp hversion]
    obtain ⟨decl, hd, -⟩ := Option.bind_eq_some_iff.mp hversion
    obtain ⟨k, -, himplements⟩ := (hc.mem_interfaces hp hl').mp hi
    refine ⟨hi, hversion, decl, ?_, hl'.of_implements himplements hd⟩
    rw [hp] at hd
    exact hd

end SymbolTable

/-! ### The kennel -/

def plainKennel : SymbolTable := { source := kennel.source }

/-- A dog feeds as the trait of its ancestor says.  The age of an animal is private, so a dog has
    the age of its tag. -/
theorem kennel_overrides :
    plainKennel.Unextended ∧ kennel.source.Layered ∧ ∃ dog, plainKennel.Builds "Dog" dog ∧
      (∃ v, plainKennel.nearest? .method ["Dog", "Animal"] "feed" = some ("Animal", v) ∧
        dog.method? "feed" = some v ∧ v.declaringClass = "Animal") ∧
      (∃ v, plainKennel.nearest? .method ["Dog", "Animal"] "age" = some ("Animal", v) ∧
        v.isPrivate = true) ∧
      ∃ f, dog.method? "age" = some f ∧ f.declaringClass ∈ dog.interfaces := by
  have hu : plainKennel.Unextended := ⟨rfl, rfl⟩
  have hl : kennel.source.Layered := Program.layered_of_entries (by decide) (by decide)
  have hdog : plainKennel.Builds "Dog" _ := ⟨{}, .start, rfl⟩
  have hfeed : plainKennel.nearest? .method ["Dog", "Animal"] "feed" = some ("Animal", _) := rfl
  have hage : plainKennel.nearest? .method ["Dog", "Animal"] "age" = some ("Animal", _) := rfl
  obtain ⟨hvisible, -⟩ := SymbolTable.nearest_version_overrides hu rfl hl .method "feed" hdog
  obtain ⟨-, hhidden⟩ := SymbolTable.nearest_version_overrides hu rfl hl .method "age" hdog
  obtain ⟨hmethod, hdeclaring, -⟩ := hvisible hfeed (.inr rfl)
  refine ⟨hu, hl, _, hdog, ⟨_, hfeed, hmethod, hdeclaring⟩, ⟨_, hage, rfl⟩, _, rfl, ?_⟩
  refine (hhidden ?_ rfl).1
  intro K v hn
  cases hage.symm.trans hn
  exact ⟨by decide, rfl⟩

end PhpCheck
