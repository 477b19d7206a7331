/-
  PhpCheck/Proofs/Hierarchy/Lineage.lean
  ======================================
  **Ancestors and interfaces** — where the two lists of a class come from.

  In the graph of the declarations the ancestors of a class are the chain of
  parents (`ParentChain`), and its interfaces are those that a class of this
  chain lists, with all that these extend (`Implements`).  An assembled class
  has just these lists, whatever extensions added to its members: members are
  all they may add.

  The list of interfaces is exact as long as interfaces have no parent
  (`Layered`), since what the parent of an interface lists would be missing
  from the class that lists the interface.
-/
import PhpCheck.Proofs.Hierarchy.Assembled

namespace PhpCheck

namespace SymbolSource

variable {s : SymbolSource} {name above i k : String} {chain : List String} {c : ClassDecl}

/-! ### Parents -/

/-- The parent of a class, the parent of that, and so on up to a class without one. -/
inductive ParentChain (s : SymbolSource) : String → List String → Prop where
  | root {name : String} {c : ClassDecl} :
      s.class? name = some c → c.parent = none → ParentChain s name []
  | step {name parent : String} {c : ClassDecl} {chain : List String} :
      s.class? name = some c → c.parent = some parent → ParentChain s parent chain →
      ParentChain s name (parent :: chain)

namespace ParentChain

theorem unique {chain' : List String} (h : s.ParentChain name chain)
    (h' : s.ParentChain name chain') : chain = chain' := by
  induction h generalizing chain' with
  | root hd hp =>
    cases h' with
    | root _ _ => rfl
    | step hd' hp' _ =>
      cases hd.symm.trans hd'
      cases hp.symm.trans hp'
  | step hd hp _ ih =>
    cases h' with
    | root hd' hp' =>
      cases hd.symm.trans hd'
      cases hp.symm.trans hp'
    | step hd' hp' h' =>
      cases hd.symm.trans hd'
      cases hp.symm.trans hp'
      rw [ih h']

theorem transGen (h : s.ParentChain name chain) (hk : k ∈ chain) :
    Relation.TransGen s.DependsOn name k := by
  induction h with
  | root _ _ => cases hk
  | @step _ parent c _ hd hp _ ih =>
    have hone : s.DependsOn _ parent := ⟨c, hd, ClassDecl.mem_above_of_parent hp⟩
    rcases List.mem_cons.mp hk with rfl | hk
    · exact .single hone
    · exact .head hone (ih hk)

/-- No class is met twice on the way up from a grounded class. -/
theorem nodup (h : s.ParentChain name chain) (hg : s.Grounded name) : (name :: chain).Nodup := by
  induction h with
  | root _ _ => simp
  | @step name parent c chain hd hp h ih =>
    have hone : s.DependsOn name parent := ⟨c, hd, ClassDecl.mem_above_of_parent hp⟩
    refine List.nodup_cons.mpr ⟨?_, ih (hg.of_dependsOn hone)⟩
    intro hmem
    exact (hg name .refl).2 ((ParentChain.step hd hp h).transGen hmem)

/-- The chain of an ancestor is what is left of the chain behind it. -/
theorem suffix {chain' : List String} (h : s.ParentChain name chain) (hk : k ∈ chain)
    (h' : s.ParentChain k chain') : k :: chain' <:+ chain := by
  induction h with
  | root _ _ => cases hk
  | step _ _ h ih =>
    rcases List.mem_cons.mp hk with rfl | hk
    · cases h.unique h'
      exact List.suffix_rfl
    · exact (ih hk).trans (List.suffix_cons _ _)

end ParentChain

/-! ### Interfaces -/

def Lists (s : SymbolSource) (name i : String) : Prop :=
  ∃ c, s.class? name = some c ∧ i ∈ c.interfaces

/-- The interfaces that a class lists, and all that these extend. -/
abbrev Implements (s : SymbolSource) : String → String → Prop := Relation.TransGen s.Lists

theorem Lists.dependsOn (h : s.Lists name i) : s.DependsOn name i := by
  obtain ⟨c, hd, hi⟩ := h
  exact ⟨c, hd, ClassDecl.mem_above_of_interface hi⟩

theorem Implements.transGen (h : s.Implements name i) : Relation.TransGen s.DependsOn name i := by
  have hle : s.Lists ≤ s.DependsOn := fun _ _ hl => hl.dependsOn
  exact Relation.TransGen.mono hle _ _ h

theorem implements_iff (hd : s.class? name = some c) :
    s.Implements name i ↔ ∃ j ∈ c.interfaces, i = j ∨ s.Implements j i := by
  rw [Implements, Relation.TransGen.head'_iff]
  constructor
  · rintro ⟨j, ⟨c', hd', hj⟩, hr⟩
    cases hd.symm.trans hd'
    exact ⟨j, hj, Relation.reflTransGen_iff_eq_or_transGen.mp hr⟩
  · rintro ⟨j, hj, hr⟩
    exact ⟨j, ⟨c, hd, hj⟩, Relation.reflTransGen_iff_eq_or_transGen.mpr hr⟩

/-- Interfaces have no parent, and what is listed as an interface is one. -/
structure Layered (s : SymbolSource) : Prop where
  parentless : ∀ {name : String} {c : ClassDecl},
    s.class? name = some c → c.kind = .interface → c.parent = none
  listed : ∀ {name i : String} {c : ClassDecl},
    s.Lists name i → s.class? i = some c → c.kind = .interface

theorem Layered.of_implements (h : s.Layered) (hi : s.Implements name i)
    (hd : s.class? i = some c) : c.kind = .interface := by
  obtain ⟨j, _, hlast⟩ := Relation.TransGen.tail'_iff.mp hi
  exact h.listed hlast hd

theorem Layered.parentChain_eq_nil (h : s.Layered) (hi : s.Implements name i)
    (hc : s.ParentChain i chain) : chain = [] := by
  cases hc with
  | root _ _ => rfl
  | step hd hp _ =>
    rw [h.parentless hd (h.of_implements hi hd)] at hp
    cases hp

end SymbolSource

/-- Whether a program is layered can be seen from its declarations. -/
theorem Program.layered_of_entries {p : Program}
    (hparents : ∀ entry ∈ p.classes.entries,
      entry.2.kind = .interface → entry.2.parent = none)
    (hlists : ∀ entry ∈ p.classes.entries, ∀ listed ∈ p.classes.entries,
      listed.1 ∈ entry.2.interfaces → listed.2.kind = .interface) : p.source.Layered where
  parentless hd := hparents _ (NameMap.mem_of_lookup hd)
  listed := by
    rintro name i d ⟨c, hc, hi⟩ hd
    exact hlists _ (NameMap.mem_of_lookup hc) _ (NameMap.mem_of_lookup hd) hi

/-! ### Assembled classes -/

theorem nodup_eraseDups (names : List String) : names.eraseDups.Nodup := by
  induction hn : names.length using Nat.strongRecOn generalizing names with
  | _ n ih =>
    cases names with
    | nil => simp
    | cons name rest =>
      have hle := List.length_filter_le (fun k => !k == name) rest
      rw [List.length_cons] at hn
      rw [List.eraseDups_cons, List.nodup_cons]
      exact ⟨by simp [List.mem_eraseDups], ih _ (by omega) _ rfl⟩

/-- What a class says about its place in the hierarchy. -/
def ClassInfo.lineage (c : ClassInfo) : String × List String × List String :=
  (c.name, c.ancestors, c.interfaces)

theorem foldl_take_lineage (take : ClassInfo → ClassInfo → ClassInfo)
    (ancestors interfaces : ClassInfo → List String)
    (h : ∀ c i, (take c i).lineage
      = (c.name, c.ancestors ++ ancestors i, c.interfaces ++ interfaces i))
    (names : List String) (c : ClassInfo) (info : String → ClassInfo) :
    (names.foldl (fun c n => take c (info n)) c).lineage
      = (c.name, c.ancestors ++ names.flatMap fun n => ancestors (info n),
          c.interfaces ++ names.flatMap fun n => interfaces (info n)) := by
  induction names generalizing c with
  | nil => simp [ClassInfo.lineage]
  | cons n rest ih =>
    have hone := h c (info n)
    simp only [ClassInfo.lineage, Prod.mk.injEq] at hone
    rw [List.foldl_cons, ih, hone.1, hone.2.1, hone.2.2]
    simp

theorem ClassDecl.lineage_assemble (decl : ClassDecl) (info : String → ClassInfo) :
    (decl.assemble info).lineage =
      (decl.name,
        decl.parent.toList.flatMap fun q => (info q).name :: (info q).ancestors,
        ((decl.parent.toList.flatMap fun q => (info q).interfaces)
          ++ decl.interfaces.flatMap fun j => (info j).name :: (info j).interfaces).eraseDups) := by
  have htraits := foldl_take_lineage ClassInfo.useTrait (fun _ => []) (fun _ => [])
    (by simp [ClassInfo.lineage, ClassInfo.useTrait]) decl.traits decl.info info
  have hparent := foldl_take_lineage ClassInfo.extendParent (fun q => q.name :: q.ancestors)
    (fun q => q.interfaces) (fun _ _ => rfl) decl.parent.toList
    (decl.traits.foldl (fun c used => c.useTrait (info used)) decl.info) info
  have hinterfaces := foldl_take_lineage ClassInfo.implement (fun _ => [])
    (fun j => j.name :: j.interfaces)
    (by simp [ClassInfo.lineage, ClassInfo.implement, ClassInfo.inherit]) decl.interfaces
    (decl.parent.toList.foldl (fun c q => c.extendParent (info q))
      (decl.traits.foldl (fun c used => c.useTrait (info used)) decl.info)) info
  have hnil : ∀ names : List String, names.flatMap (fun _ => ([] : List String)) = [] :=
    fun _ => List.flatMap_eq_nil_iff.mpr fun _ _ => rfl
  simp only [ClassInfo.lineage, Prod.mk.injEq] at htraits hparent hinterfaces
  simp only [ClassInfo.lineage, assemble, ClassInfo.withoutRepeats, hinterfaces, hparent, htraits]
  simp only [ClassDecl.info, hnil, List.nil_append, List.append_nil]

theorem ClassDecl.lineage_assemble_congr {decl : ClassDecl} {info info' : String → ClassInfo}
    (h : ∀ above ∈ decl.above, (info above).lineage = (info' above).lineage) :
    (decl.assemble info).lineage = (decl.assemble info').lineage := by
  simp only [ClassInfo.lineage, Prod.mk.injEq] at h
  have hparent : ∀ q ∈ decl.parent.toList, q ∈ decl.above := fun q hq =>
    ClassDecl.mem_above_of_parent (Option.mem_toList.mp hq)
  have hancestors : (decl.parent.toList.flatMap fun q => (info q).name :: (info q).ancestors)
      = decl.parent.toList.flatMap fun q => (info' q).name :: (info' q).ancestors :=
    List.flatMap_congr fun q hq => by
      obtain ⟨hname, hchain, -⟩ := h q (hparent q hq)
      rw [hname, hchain]
  have hkept : (decl.parent.toList.flatMap fun q => (info q).interfaces)
      = decl.parent.toList.flatMap fun q => (info' q).interfaces :=
    List.flatMap_congr fun q hq => (h q (hparent q hq)).2.2
  have hlisted : (decl.interfaces.flatMap fun j => (info j).name :: (info j).interfaces)
      = decl.interfaces.flatMap fun j => (info' j).name :: (info' j).interfaces :=
    List.flatMap_congr fun j hj => by
      obtain ⟨hname, -, hinterfaces⟩ := h j (ClassDecl.mem_above_of_interface hj)
      rw [hname, hinterfaces]
  rw [lineage_assemble, lineage_assemble, hancestors, hkept, hlisted]

namespace SymbolTable.Assembles

variable {t : SymbolTable} {p : Program} {name i k : String} {c : ClassInfo}

/-- Extensions have no part in the place of a class. -/
theorem lineage_extended {a b : ClassInfo} {xs : List (MemberExtension PropertyInfo)}
    {ys : List (MemberExtension MethodInfo)} (hx : Extended ClassInfo.addProperties xs a b)
    (hy : Extended ClassInfo.addMethods ys b c) : c.lineage = a.lineage := by
  have hb : b.lineage = a.lineage := by
    apply hx.keeps
    intros
    rfl
  have hc : c.lineage = b.lineage := by
    apply hy.keeps
    intros
    rfl
  exact hc.trans hb

/-- The place of a class comes from the classes above. -/
theorem lineage_eq {decl : ClassDecl} {info : String → ClassInfo} {b : ClassInfo}
    {xs : List (MemberExtension PropertyInfo)} {ys : List (MemberExtension MethodInfo)}
    (hx : Extended ClassInfo.addProperties xs (decl.assemble info) b)
    (hy : Extended ClassInfo.addMethods ys b c) :
    c.name = decl.name ∧
      c.ancestors = (decl.parent.toList.flatMap fun q => (info q).name :: (info q).ancestors) ∧
      c.interfaces = ((decl.parent.toList.flatMap fun q => (info q).interfaces)
        ++ decl.interfaces.flatMap fun j => (info j).name :: (info j).interfaces).eraseDups := by
  have hsame := lineage_extended hx hy
  rw [decl.lineage_assemble] at hsame
  simpa only [ClassInfo.lineage, Prod.mk.injEq] using hsame

/-- So however often a class is put together, its place is the same. -/
theorem lineage_unique {d : ClassInfo} (h : t.Assembles name c) (h' : t.Assembles name d) :
    c.lineage = d.lineage := by
  induction h generalizing d with
  | intro _ declared _ hx hy ih =>
    cases h' with
    | intro _ declared' above' hx' hy' =>
      cases declared.symm.trans declared'
      rw [lineage_extended hx hy, lineage_extended hx' hy']
      exact ClassDecl.lineage_assemble_congr fun above hmem => ih above hmem (above' above hmem)

theorem name_eq (hp : t.source = p.source) (h : t.Assembles name c) : c.name = name := by
  obtain ⟨_, hd, _, hx, hy⟩ := h
  rw [hp] at hd
  exact (lineage_eq hx hy).1.trans (p.named hd)

/-- The ancestors of a class are the chain of its parents. -/
theorem parentChain (hp : t.source = p.source) (h : t.Assembles name c) :
    t.source.ParentChain name c.ancestors := by
  induction h with
  | @intro name decl info _ c _ hd habove hx hy ih =>
    rw [(lineage_eq hx hy).2.1]
    cases hq : decl.parent with
    | none => exact .root hd hq
    | some q =>
      have hmem : q ∈ decl.above := ClassDecl.mem_above_of_parent hq
      rw [Option.toList_some, List.flatMap_singleton, (habove q hmem).name_eq hp]
      exact .step hd hq (ih q hmem)

theorem ancestors_eq_nil (hp : t.source = p.source) (hl : t.source.Layered)
    (h : t.Assembles i c) (hi : t.source.Implements name i) : c.ancestors = [] :=
  hl.parentChain_eq_nil hi (h.parentChain hp)

/-- The interfaces of a class are those that a class of its chain lists or inherits. -/
theorem mem_interfaces (hp : t.source = p.source) (hl : t.source.Layered)
    (h : t.Assembles name c) :
    i ∈ c.interfaces ↔ ∃ k ∈ name :: c.ancestors, t.source.Implements k i := by
  induction h with
  | @intro name decl info _ c _ hd habove hx hy ih =>
    have hown : (∃ j ∈ decl.interfaces, i = (info j).name ∨ i ∈ (info j).interfaces) ↔
        t.source.Implements name i := by
      rw [SymbolSource.implements_iff hd]
      refine exists_congr fun j => and_congr_right fun hj => ?_
      have hmem : j ∈ decl.above := ClassDecl.mem_above_of_interface hj
      -- An interface has no ancestors that would add to its own interfaces.
      rw [ih j hmem, (habove j hmem).ancestors_eq_nil hp hl (.single ⟨decl, hd, hj⟩), (habove j hmem).name_eq hp]
      simp
    obtain ⟨-, hancestors, hinterfaces⟩ := lineage_eq hx hy
    rw [hinterfaces, hancestors, List.mem_eraseDups, List.mem_append]
    simp only [List.mem_flatMap, List.mem_cons, hown]
    cases hq : decl.parent with
    | none => simp
    | some q =>
      have hmem : q ∈ decl.above := ClassDecl.mem_above_of_parent hq
      have hparent := ih q hmem
      simp only [List.mem_cons] at hparent
      simp [hparent, (habove q hmem).name_eq hp, or_comm]

theorem nodup_interfaces (h : t.Assembles name c) : c.interfaces.Nodup := by
  obtain ⟨_, _, _, hx, hy⟩ := h
  rw [(lineage_eq hx hy).2.2]
  exact nodup_eraseDups _

end SymbolTable.Assembles

end PhpCheck
