/-
  PhpCheck/Proofs/Classes/Belonging.lean
  ======================================
  **Where members belong** — every member of a class can be used inside the
  class.

  A member comes into a class by its own declaration, from a trait, from the
  parent or from an interface.  The first two make it a member of the class
  itself; the other two leave it where it was and pass private members over.  So
  a member belongs to the class, or it is not private and belongs to a class
  above (`Belongs`), at every level of the hierarchy.

  Visibility looks at the same two things, the class around and the classes above
  it, though it looks the class up anew.
-/
import PhpCheck.Env.Enter
import PhpCheck.Proofs.Analysis.Order
import PhpCheck.Proofs.Classes.Override
import PhpCheck.Proofs.Classes.Subclass

namespace PhpCheck

open Analysis

namespace SymbolTable

variable {t : SymbolTable} {p : Program} {kind : MemberKind} {C Q name : String}
  {c q : ClassInfo} {v : kind.Info}

/-! ### The classes directly above -/

namespace Assembles

variable {decl : ClassDecl}

theorem isSubclassOf_parent (hp : t.source = p.source) (hl : t.source.Layered)
    (h : t.Assembles C c) (hd : t.source.class? C = some decl) (hq : decl.parent = some Q) :
    c.isSubclassOf Q = true := by
  rw [h.isSubclassOf_iff hp hl]
  left
  generalize hchain : c.ancestors = chain
  have hparents : t.source.ParentChain C chain := hchain ▸ h.parentChain hp
  cases hparents with
  | root hd' hnone =>
    cases hd.symm.trans hd'
    cases hq.symm.trans hnone
  | step hd' hq' _ =>
    cases hd.symm.trans hd'
    cases hq.symm.trans hq'
    exact List.mem_cons_self

theorem isSubclassOf_interface (hp : t.source = p.source) (hl : t.source.Layered)
    (h : t.Assembles C c) (hd : t.source.class? C = some decl) (hj : Q ∈ decl.interfaces) :
    c.isSubclassOf Q = true := by
  rw [h.isSubclassOf_iff hp hl]
  exact .inr ⟨C, List.mem_cons_self, .single ⟨decl, hd, hj⟩⟩

end Assembles

/-! ### Members -/

/-- The member is one of the class itself, or one of a class above it that is not private. -/
def Belongs (kind : MemberKind) (C : String) (c : ClassInfo) (v : kind.Info) : Prop :=
  kind.declaringClass v = C ∨
    kind.isPrivate v = false ∧ c.isSubclassOf (kind.declaringClass v) = true

namespace Belongs

theorem declaringClass_eq (h : Belongs kind C c v) (hv : kind.isPrivate v = true) :
    kind.declaringClass v = C := by
  rcases h with h | ⟨hvisible, _⟩
  · exact h
  · rw [hv] at hvisible
    cases hvisible

/-- What is inherited from a class above belongs where it did. -/
theorem of_inherited (hp : t.source = p.source) (hl : t.source.Layered) (h : t.Assembles C c)
    (hq : t.Assembles Q q) (hbelow : c.isSubclassOf Q = true)
    (hv : kind.inherited? q name = some v) (hbelongs : Belongs kind Q q v) :
    Belongs kind C c v := by
  have hvisible : kind.isPrivate v = false := by
    simpa using (Option.filter_eq_some_iff.mp hv).2
  refine .inr ⟨hvisible, ?_⟩
  rcases hbelongs with hown | ⟨-, habove⟩
  · rw [hown]
    exact hbelow
  · exact h.isSubclassOf_trans hp hl hq hbelow habove

end Belongs

/-- All members of a class belong there, by induction on the classes above. -/
theorem Assembles.belongs (hu : t.Unextended) (hp : t.source = p.source) (hl : t.source.Layered)
    (h : t.Assembles C c) (hv : kind.member? c name = some v) : Belongs kind C c v := by
  induction h generalizing v with
  | @intro C decl info b c exist hd habove hx hy ih =>
    have hself : t.Assembles C c := .intro exist hd habove hx hy
    have hname : decl.name = C := by
      rw [hp] at hd
      exact p.named hd
    have hinherited : ∀ {above : String}, above ∈ decl.above → c.isSubclassOf above = true →
        kind.inherited? (info above) name = some v → Belongs kind C c v := by
      intro above hmem hbelow hv
      have hmember := (Option.filter_eq_some_iff.mp hv).1
      exact .of_inherited hp hl hself (habove above hmem) hbelow hv (ih above hmem hmember)
    rw [eq_assemble hu hx hy, MemberKind.member?_assemble] at hv
    rcases Option.or_eq_some_iff.mp hv with hv | ⟨-, hinterface⟩
    · rcases Option.or_eq_some_iff.mp hv with hv | ⟨-, hparent⟩
      · left
        rcases Option.or_eq_some_iff.mp hv with hown | ⟨-, htrait⟩
        · exact (MemberKind.declaringClass_own? hown).trans hname
        · obtain ⟨used, _, hused⟩ := List.exists_of_findSome?_eq_some htrait
          obtain ⟨w, _, rfl⟩ := Option.map_eq_some_iff.mp hused
          exact MemberKind.declaringClass_moved.trans hname
      · obtain ⟨parent, hq, hparent⟩ := Option.bind_eq_some_iff.mp hparent
        exact hinherited (ClassDecl.mem_above_of_parent hq)
          (hself.isSubclassOf_parent hp hl hd hq) hparent
    · obtain ⟨j, hj, hinterface⟩ := List.exists_of_findSome?_eq_some hinterface
      exact hinherited (ClassDecl.mem_above_of_interface hj)
        (hself.isSubclassOf_interface hp hl hd hj) hinterface

/-! ### Inside the class -/

/-- What belongs to a class can be used inside it, though the class is looked up anew. -/
theorem canUse_of_belongs {m : Memory} (hm : AtRest t m) (h : t.Assembles C c)
    (hv : Belongs kind C c v) (e : Env) :
    ((t.canUse (e.enterClass C) (kind.membership v)).runFrom m).1 = .ok true := by
  cases hvisibility : (kind.membership v).visibility with
  | anyone =>
    unfold canUse
    simp [Env.enterClass, hvisibility]
  | classOnly =>
    have hprivate : kind.isPrivate v = true := by
      simp [MemberKind.isPrivate, Membership.isPrivate, hvisibility]
    have hown : (kind.membership v).declaringClass = C := hv.declaringClass_eq hprivate
    unfold canUse
    simp [Env.enterClass, hvisibility, hown]
  | family =>
    rw [canUse_protected_iff (e := e.enterClass C) hvisibility rfl rfl]
    rcases hv with hown | ⟨-, habove⟩
    · exact .inl hown.symm
    · obtain ⟨d, hr, hd⟩ := h.found hm
      refine .inr ⟨d, hr, ?_⟩
      rw [hd.isSubclassOf_eq h]
      exact habove

/-- **Every member of a class can be used inside the class.**  It belongs to the class or to a
    class above it, and to the class if it is private; and a class body knows it as usable,
    wherever the class is entered and whatever was asked before. -/
theorem members_usable_inside (hu : t.Unextended) (hp : t.source = p.source)
    (hl : p.source.Layered) (h : t.Builds C c) (kind : MemberKind) (name : String) {v : kind.Info}
    (hv : kind.member? c name = some v) :
    (kind.declaringClass v = C ∨ c.isSubclassOf (kind.declaringClass v) = true) ∧
      (kind.isPrivate v = true → kind.declaringClass v = C) ∧
      ∀ (e : Env) (m : Memory), t.Arises m →
        ((t.canUse (e.enterClass C) (kind.membership v)).runFrom m).1 = .ok true := by
  have hl' : t.source.Layered := hp ▸ hl
  have hc := h.assembles hp
  have hbelongs : Belongs kind C c v := hc.belongs hu hp hl' hv
  refine ⟨hbelongs.imp_right And.right, hbelongs.declaringClass_eq, ?_⟩
  intro e m hm
  exact canUse_of_belongs hm.atRest hc hbelongs e

end SymbolTable

/-! ### The kennel -/

/-- A dog feeds by a protected method that its ancestor has from a trait, and has the age of its
    tag, whatever was looked up before. -/
theorem kennel_members_usable :
    plainKennel.Unextended ∧ kennel.source.Layered ∧ ∃ dog, plainKennel.Builds "Dog" dog ∧
      (∃ v, dog.method? "feed" = some v ∧ v.visibility = .family ∧ v.declaringClass = "Animal" ∧
        ∀ m, plainKennel.Arises m →
          ((plainKennel.canUse ((Env.ofFile "dog.php" true).enterClass "Dog")
            v.toMembership).runFrom m).1 = .ok true) ∧
      ∃ v, dog.method? "age" = some v ∧ dog.isSubclassOf v.declaringClass = true := by
  have hu : plainKennel.Unextended := ⟨rfl, rfl⟩
  have hl : kennel.source.Layered := Program.layered_of_entries (by decide) (by decide)
  have hdog : plainKennel.Builds "Dog" _ := ⟨{}, .start, rfl⟩
  have hfeed := SymbolTable.members_usable_inside hu rfl hl hdog .method "feed" rfl
  have hage := SymbolTable.members_usable_inside hu rfl hl hdog .method "age" rfl
  refine ⟨hu, hl, _, hdog, ⟨_, rfl, rfl, rfl, ?_⟩, _, rfl, ?_⟩
  · intro m hm
    exact hfeed.2.2 _ m hm
  · exact hage.1.resolve_left (by decide)

end PhpCheck
