/-
  PhpCheck/Proofs/Classes/TraitMembers.lean
  =========================================
  **Members from traits** — what becomes of the relative names in a member that a
  class has from a trait, perhaps through several traits.

  Relative names are replaced twice: in the trait that declares the member they
  come to name this trait, and each class or trait that takes the member over
  then puts itself in the place of the trait that it takes it from.  So the type
  of the member names the class at the end of the way (`ComesFrom.type_eq`) and
  none of the traits on it.

  The second replacement leaves parameters alone: their types stay as they were in
  the trait that declares the member, and no class is below a trait that it uses.
-/
import PhpCheck.Proofs.Classes.Override

namespace PhpCheck

/-! ### Types that change place -/

namespace PhpType

/-- The type is written as `self`, in any case. -/
def IsSelf (t : PhpType) : Prop := ∃ name, t.kind = .object name ∧ Text.sameName name "self" = true

/-- The type is written as `static`, in any case. -/
def IsOwnStatic (t : PhpType) : Prop :=
  ∃ name, t.kind = .object name ∧ Text.sameName name "static" = true

variable {t : PhpType} {C T : String}

theorem inClass_of_isSelf (h : t.IsSelf) (parent : Option String) :
    t.inClass C parent = .object C t.nullable := by
  obtain ⟨name, hkind, hname⟩ := h
  simp [inClass, Kind.inClass, hkind, hname, object]

theorem not_self_of_static {name : String} (h : Text.sameName name "static" = true) :
    Text.sameName name "self" = false := by
  rw [Bool.eq_false_iff]
  intro hself
  rw [Text.sameName_comm] at hself
  exact absurd (Text.sameName_trans hself h) (by decide)

theorem inClass_of_isOwnStatic (h : t.IsOwnStatic) (parent : Option String) :
    t.inClass C parent = .of (.static C) t.nullable := by
  obtain ⟨name, hkind, hname⟩ := h
  simp [inClass, Kind.inClass, hkind, hname, not_self_of_static hname]

theorem moved_object (T C : String) (nullable : Bool) :
    (object T nullable).moved T C = object C nullable := by
  simp [moved, Kind.moved, object]

theorem moved_static (T C : String) (nullable : Bool) :
    (of (.static T) nullable).moved T C = of (.static C) nullable := by
  simp [moved, Kind.moved]

theorem className?_moved (t : PhpType) (T C : String) :
    (t.moved T C).className? = t.className?.map fun name => if name = T then C else name := by
  obtain ⟨kind, nullable, _⟩ := t
  cases kind <;> rfl

end PhpType

/-! ### Declarations of members -/

namespace MemberKind

/-- The type of a property, or that of the result of a method. -/
def type : (kind : MemberKind) → kind.Info → PhpType
  | .method, m => m.result
  | .property, p => p.type

/-- The parameters of a method; a property has none. -/
def params : (kind : MemberKind) → kind.Info → List ParamInfo
  | .method, m => m.params
  | .property, _ => []

def Decl : MemberKind → Type
  | .method => MethodDecl
  | .property => PropertyDecl

/-- The last declaration of a member in a class. -/
def decl? : (kind : MemberKind) → ClassDecl → String → Option kind.Decl
  | .method, c, name => c.methods.reverse.find? fun m => name == m.name
  | .property, c, name => c.properties.reverse.find? fun p => name == p.name

/-- The type as it is written in a declaration. -/
def written : (kind : MemberKind) → kind.Decl → PhpType
  | .method, m => m.result
  | .property, p => p.type

/-- The parameters as they are written in a declaration. -/
def writtenParams : (kind : MemberKind) → kind.Decl → List ParamDecl
  | .method, m => m.params
  | .property, _ => []

/-- A declared member in its class. -/
def info : (kind : MemberKind) → ClassDecl → kind.Decl → kind.Info
  | .method, c, m => m.info c
  | .property, c, p => p.info c

theorem lookup_map {α β : Type} (key : α → String) (value : α → β) (xs : List α) (name : String) :
    (xs.map fun x => (key x, value x)).lookup name
      = (xs.find? fun x => name == key x).map value := by
  induction xs with
  | nil => rfl
  | cons x rest ih =>
    rw [List.map_cons, List.lookup_cons, List.find?_cons, ih]
    cases name == key x <;> rfl

variable {kind : MemberKind} {name : String}

theorem own?_eq (c : ClassDecl) : kind.own? c name = (kind.decl? c name).map (kind.info c) := by
  cases kind <;>
    · simp only [own?, own, ← List.map_reverse]
      exact lookup_map _ _ _ _

theorem type_info (c : ClassDecl) (d : kind.Decl) :
    kind.type (kind.info c d) = (kind.written d).inClass c.name c.parent := by
  cases kind <;> rfl

theorem params_info (c : ClassDecl) (d : kind.Decl) :
    kind.params (kind.info c d)
      = (kind.writtenParams d).map (·.info fun type => type.inClass c.name c.parent) := by
  cases kind <;> rfl

theorem type_moved (T C : String) (v : kind.Info) :
    kind.type (kind.moved T C v) = (kind.type v).moved T C := by
  cases kind <;> rfl

theorem params_moved (T C : String) (v : kind.Info) :
    kind.params (kind.moved T C v) = kind.params v := by
  cases kind <;> rfl

end MemberKind

namespace SymbolTable

variable {t : SymbolTable} {p : Program} {kind : MemberKind} {C T D name : String}
  {c : ClassInfo} {d : kind.Decl} {path : List String}

/-! ### Where members are taken from -/

/-- The class does not declare the member, and this is the first of its traits that has it. -/
def TakesFrom (t : SymbolTable) (kind : MemberKind) (name C T : String) : Prop :=
  ∃ decl, t.source.class? C = some decl ∧ kind.decl? decl name = none ∧
    decl.traits.find? (fun used => ((t.built? used).bind (kind.member? · name)).isSome) = some T

/-- The class has the member from its declaration in another one or in itself, through the
    listed traits, of which the first is its own and the last is the one that declares the
    member. -/
inductive ComesFrom (t : SymbolTable) (kind : MemberKind) (name D : String) (d : kind.Decl) :
    String → List String → Prop where
  | declared {decl : ClassDecl} : t.source.class? D = some decl →
      kind.decl? decl name = some d → ComesFrom t kind name D d D []
  | taken {C T : String} {path : List String} : t.TakesFrom kind name C T →
      ComesFrom t kind name D d T path → ComesFrom t kind name D d C (T :: path)

theorem TakesFrom.dependsOn (h : t.TakesFrom kind name C T) : t.source.DependsOn C T := by
  obtain ⟨decl, hd, -, hfirst⟩ := h
  exact ⟨decl, hd, ClassDecl.mem_above_of_trait (List.mem_of_find?_eq_some hfirst)⟩

theorem ComesFrom.transGen (h : t.ComesFrom kind name D d C path) {K : String} (hK : K ∈ path) :
    Relation.TransGen t.source.DependsOn C K := by
  induction h with
  | declared => cases hK
  | taken htakes _ ih =>
    rcases List.mem_cons.mp hK with rfl | hK
    · exact .single htakes.dependsOn
    · exact .head htakes.dependsOn (ih hK)

/-- The member of a class that takes it from a trait is that of the trait, moved to the class. -/
theorem TakesFrom.member? (hu : t.Unextended) (hp : t.source = p.source)
    (h : t.TakesFrom kind name C T) (hc : t.Assembles C c) :
    ∃ used w, t.Assembles T used ∧ kind.member? used name = some w ∧
      kind.member? c name = some (kind.moved T C w) := by
  obtain ⟨decl, hd, hnone, hfirst⟩ := h
  cases hc with
  | @intro _ decl' info b _ exist hd' habove hx hy =>
    cases hd.symm.trans hd'
    have hname : decl.name = C := by
      rw [hp] at hd
      exact p.named hd
    have hbuilt : ∀ used ∈ decl.traits, t.built? used = some (info used) := fun used hmem =>
      (habove used (ClassDecl.mem_above_of_trait hmem)).built? hu
    obtain ⟨hhas, before, after, htraits, hbefore⟩ := List.find?_eq_some_iff_append.mp hfirst
    have hT : T ∈ decl.traits := by
      rw [htraits]
      simp
    have hused := habove T (ClassDecl.mem_above_of_trait hT)
    rw [hbuilt T hT, Option.bind_some] at hhas
    obtain ⟨w, hw⟩ := Option.isSome_iff_exists.mp hhas
    refine ⟨info T, w, hused, hw, ?_⟩
    have hfound : decl.traits.findSome? (fun used =>
        (kind.member? (info used) name).map (kind.moved (info used).name decl.name))
          = some (kind.moved T C w) := by
      refine List.findSome?_eq_some_iff.mpr ⟨before, T, after, htraits, ?_, ?_⟩
      · rw [hw, hused.name_eq hp, hname]
        rfl
      · intro used hmem
        have hmem' : used ∈ decl.traits := by
          rw [htraits]
          simp [hmem]
        have hskipped := hbefore used hmem
        rw [hbuilt used hmem', Option.bind_some] at hskipped
        simp only [Bool.not_eq_true', Option.isSome_eq_false_iff, Option.isNone_iff_eq_none]
          at hskipped
        rw [hskipped]
        rfl
    rw [eq_assemble hu hx hy, MemberKind.member?_assemble, MemberKind.own?_eq, hnone, hfound]
    rfl

/-! ### What the members say -/

theorem Assembles.ne_of_transGen (hc : t.Assembles C c)
    (h : Relation.TransGen t.source.DependsOn C T) : T ≠ C := by
  rintro rfl
  exact (hc.grounded T .refl).2 h

/-- A member names the class that it was moved to where it named the trait. -/
theorem className?_moved_ne {v : kind.Info} (hne : T ≠ C) :
    (kind.type (kind.moved T C v)).className? ≠ some T := by
  rw [MemberKind.type_moved, PhpType.className?_moved]
  intro h
  obtain ⟨name, -, hmoved⟩ := Option.map_eq_some_iff.mp h
  split at hmoved
  · exact hne hmoved.symm
  · rename_i hname
    exact hname hmoved

/-- What a class has of a member that comes to it through traits: its type names the class and
    none of these traits, its parameters are as the declaration says them. -/
structure Rebound (t : SymbolTable) (kind : MemberKind) (D : String) (d : kind.Decl) (C : String)
    (path : List String) (v : kind.Info) : Prop where
  ofSelf : (kind.written d).IsSelf → kind.type v = .object C (kind.written d).nullable
  ofStatic : (kind.written d).IsOwnStatic →
    kind.type v = .of (.static C) (kind.written d).nullable
  unnamed : ∀ K ∈ path, (kind.type v).className? ≠ some K
  params : ∃ decl, t.source.class? D = some decl ∧
    kind.params v = (kind.writtenParams d).map (·.info fun type => type.inClass D decl.parent)

namespace Rebound

variable {v w : kind.Info}

theorem of_declared {decl : ClassDecl} (hd : t.source.class? D = some decl)
    (hname : decl.name = D) : Rebound t kind D d D [] (kind.info decl d) where
  ofSelf h := by rw [MemberKind.type_info, hname, PhpType.inClass_of_isSelf h]
  ofStatic h := by rw [MemberKind.type_info, hname, PhpType.inClass_of_isOwnStatic h]
  unnamed := by simp
  params := ⟨decl, hd, by rw [MemberKind.params_info, hname]⟩

/-- One more class takes the member over. -/
theorem moved (h : Rebound t kind D d T path w) (hne : ∀ K ∈ T :: path, K ≠ C) :
    Rebound t kind D d C (T :: path) (kind.moved T C w) where
  ofSelf hself := by rw [MemberKind.type_moved, h.ofSelf hself, PhpType.moved_object]
  ofStatic hstatic := by rw [MemberKind.type_moved, h.ofStatic hstatic, PhpType.moved_static]
  unnamed := by
    intro K hK
    rcases List.mem_cons.mp hK with rfl | hpath
    · exact className?_moved_ne (hne K hK)
    · rw [MemberKind.type_moved, PhpType.className?_moved]
      intro hnamed
      obtain ⟨name, hname, hmoved⟩ := Option.map_eq_some_iff.mp hnamed
      split at hmoved
      · exact hne K hK hmoved.symm
      · exact h.unnamed K hpath (hmoved ▸ hname)
  params := by
    obtain ⟨decl, hd, hparams⟩ := h.params
    exact ⟨decl, hd, (MemberKind.params_moved T C w).trans hparams⟩

end Rebound

/-- By induction on the way, one trait after the other. -/
theorem ComesFrom.rebound (hu : t.Unextended) (hp : t.source = p.source)
    (h : t.ComesFrom kind name D d C path) (hc : t.Assembles C c) :
    ∃ v, kind.member? c name = some v ∧ Rebound t kind D d C path v := by
  induction h generalizing c with
  | @declared decl hd hdecl =>
    have hname : decl.name = D := by
      rw [hp] at hd
      exact p.named hd
    refine ⟨kind.info decl d, ?_, .of_declared hd hname⟩
    cases hc with
    | intro _ hd' _ hx hy =>
      cases hd.symm.trans hd'
      rw [eq_assemble hu hx hy, MemberKind.member?_assemble, MemberKind.own?_eq, hdecl]
      rfl
  | @taken C T path htakes hrest ih =>
    obtain ⟨used, w, hused, hw, hv⟩ := htakes.member? hu hp hc
    obtain ⟨w', hw', hrebound⟩ := ih hused
    cases hw.symm.trans hw'
    refine ⟨kind.moved T C w, hv, hrebound.moved fun K hK => ?_⟩
    exact hc.ne_of_transGen ((ComesFrom.taken htakes hrest).transGen hK)

/-- **Members from traits name the class.**  What a class takes from a trait is a member of the
    class itself, whose type says what it says in the trait, except that it names the class where
    it names the trait there.  However many traits the member comes through, a `self` or `static`
    that is written as its type names the class, nullable as it is written, and the type names
    none of the traits.  Its parameters are as they are in the trait that it was taken from, so
    a `self` written there keeps to the trait that declares the member. -/
theorem taken_member_rebound (hu : t.Unextended) (hp : t.source = p.source) (h : t.Builds C c)
    (kind : MemberKind) (name : String) :
    (∀ T, t.TakesFrom kind name C T →
      ∃ used w v, t.built? T = some used ∧ kind.member? used name = some w ∧
        kind.member? c name = some v ∧ kind.declaringClass v = C ∧
        kind.type v = (kind.type w).moved T C ∧ (kind.type v).className? ≠ some T ∧
        kind.params v = kind.params w) ∧
    ∀ (D : String) (d : kind.Decl) (path : List String), t.ComesFrom kind name D d C path →
      ∃ v, kind.member? c name = some v ∧ Rebound t kind D d C path v := by
  have hc := h.assembles hp
  constructor
  · intro T htakes
    obtain ⟨used, w, hused, hw, hv⟩ := htakes.member? hu hp hc
    have hne : T ≠ C := hc.ne_of_transGen (.single htakes.dependsOn)
    exact ⟨used, w, _, hused.built? hu, hw, hv, MemberKind.declaringClass_moved,
      MemberKind.type_moved T C w, className?_moved_ne hne, MemberKind.params_moved T C w⟩
  · intro D d path hcomes
    exact hcomes.rebound hu hp hc

end SymbolTable

/-! ### A farm -/

namespace Farm

def mate : MethodDecl :=
  { name := "mate", params := [{ name := "other", type := .object "self" }],
    result := .object "static" true }

def partner : PropertyDecl := { name := "partner", type := .object "self" true }

/-- Cats and dogs mate; dogs are kept as well, and have from this what cats have themselves. -/
def farm : Program :=
  [({ name := "Mating", kind := .trait, methods := [mate], properties := [partner] } : ClassDecl),
    { name := "Keeping", kind := .trait, traits := ["Mating"] },
    { name := "Cat", traits := ["Mating"] },
    { name := "Dog", traits := ["Keeping"] }].foldl Program.addClass {}

def table : SymbolTable := { source := farm.source }

/-- A dog mates with a dog, and its partner is a dog; but whom it mates with is still to have
    the trait. -/
theorem dog_mates :
    table.source = farm.source ∧ table.Unextended ∧ ∃ dog, table.Builds "Dog" dog ∧
      (∃ v, dog.method? "mate" = some v ∧
        table.ComesFrom .method "mate" "Mating" mate "Dog" ["Keeping", "Mating"] ∧
        mate.result.IsOwnStatic ∧ v.result = .of (.static "Dog") true ∧
        v.params.map (·.type) = [.object "Mating"]) ∧
      ∃ v, dog.property? "partner" = some v ∧ partner.type.IsSelf ∧
        v.type = .object "Dog" true := by
  have hu : table.Unextended := ⟨rfl, rfl⟩
  have hdog : table.Builds "Dog" _ := ⟨{}, .start, rfl⟩
  have hmate : table.ComesFrom .method "mate" "Mating" mate "Dog" ["Keeping", "Mating"] :=
    .taken ⟨_, rfl, rfl, rfl⟩ (.taken ⟨_, rfl, rfl, rfl⟩ (.declared rfl rfl))
  have hpartner : table.ComesFrom .property "partner" "Mating" partner "Dog"
      ["Keeping", "Mating"] :=
    .taken ⟨_, rfl, rfl, rfl⟩ (.taken ⟨_, rfl, rfl, rfl⟩ (.declared rfl rfl))
  have hstatic : mate.result.IsOwnStatic := ⟨"static", rfl, by decide⟩
  have hself : partner.type.IsSelf := ⟨"self", rfl, by decide⟩
  obtain ⟨v, hv, hbound⟩ :=
    (SymbolTable.taken_member_rebound hu rfl hdog .method "mate").2 _ _ _ hmate
  obtain ⟨w, hw, hbound'⟩ :=
    (SymbolTable.taken_member_rebound hu rfl hdog .property "partner").2 _ _ _ hpartner
  obtain ⟨decl, hd, hparams⟩ := hbound.params
  refine ⟨rfl, hu, _, hdog, ⟨v, hv, hmate, hstatic, hbound.ofStatic hstatic, ?_⟩, w, hw, hself,
    hbound'.ofSelf hself⟩
  have hsame : v.params = mate.params.map (·.info fun type => type.inClass "Mating" decl.parent) :=
    hparams
  rw [hsame]
  rfl

/-- A `self` that a trait writes as the type of a parameter does not name the class. -/
theorem cat_param_keeps_trait :
    ∃ cat v, table.Builds "Cat" cat ∧ table.TakesFrom .method "mate" "Cat" "Mating" ∧
      mate.params.map (·.type) = [.object "self"] ∧ cat.method? "mate" = some v ∧
      v.declaringClass = "Cat" ∧ v.params.map (·.type) = [.object "Mating"] ∧
      PhpType.object "Mating" ≠ .object "Cat" :=
  ⟨_, _, ⟨{}, .start, rfl⟩, ⟨_, rfl, rfl, rfl⟩, rfl, rfl, rfl, rfl, by decide⟩

end Farm

end PhpCheck
