/-
  PhpCheck/Proofs/Hierarchy/Assembled.lean
  ========================================
  **What a class is put together to** — the class that a declaration describes,
  said without look-ups, memory or an order of work.

  `ClassDecl.assemble` puts a declaration together from given classes above it.
  `SymbolTable.Assembles` closes this off: a class is assembled from assembled
  classes, and extensions then add members to it.  What an extension answers may
  depend on what it looked up, so one name can have several assembled classes;
  when all extensions are settled it has one (`Assembles.unique`).  Whatever
  extensions do, only a grounded class is assembled (`Assembles.grounded`).
-/
import Mathlib.Data.List.Basic
import PhpCheck.Proofs.Hierarchy.Dependence
import PhpCheck.Symbols.Assembly
import PhpCheck.Symbols.Table

namespace PhpCheck

/-! ### Declarations -/

/-- A declared class with what the classes above it add to it. -/
def ClassDecl.assemble (decl : ClassDecl) (info : String → ClassInfo) : ClassInfo :=
  let c := decl.traits.foldl (fun c used => c.useTrait (info used)) decl.info
  let c := decl.parent.toList.foldl (fun c parent => c.extendParent (info parent)) c
  let c := decl.interfaces.foldl (fun c above => c.implement (info above)) c
  c.withoutRepeats

theorem foldl_take_congr (take : ClassInfo → ClassInfo → ClassInfo) {names : List String}
    (c : ClassInfo) {info info' : String → ClassInfo} (h : ∀ n ∈ names, info n = info' n) :
    names.foldl (fun c n => take c (info n)) c = names.foldl (fun c n => take c (info' n)) c :=
  List.foldl_ext _ _ c fun c n hn => by rw [h n hn]

theorem ClassDecl.assemble_congr {decl : ClassDecl} {info info' : String → ClassInfo}
    (h : ∀ above ∈ decl.above, info above = info' above) :
    decl.assemble info = decl.assemble info' := by
  have htraits : ∀ used ∈ decl.traits, info used = info' used := by
    intro used hu
    exact h used (mem_above_of_trait hu)
  have hparent : ∀ parent ∈ decl.parent.toList, info parent = info' parent := by
    intro parent hp
    exact h parent (mem_above_of_parent (Option.mem_toList.mp hp))
  have hinterfaces : ∀ i ∈ decl.interfaces, info i = info' i := by
    intro i hi
    exact h i (mem_above_of_interface hi)
  simp only [assemble]
  rw [foldl_take_congr ClassInfo.useTrait _ htraits,
    foldl_take_congr ClassInfo.extendParent _ hparent,
    foldl_take_congr ClassInfo.implement _ hinterfaces]

/-! ### Extensions -/

/-- The script answers a value for some outcomes of its look-ups. -/
inductive Consultation.MayAnswer {α : Type} (v : α) : Consultation α → Prop where
  | answer : MayAnswer v (.answer v)
  | note {line : String} {next : Consultation α} :
      MayAnswer v next → MayAnswer v (.note line next)
  | consult {className : String} {next : Except Failure ClassInfo → Consultation α}
      (outcome : Except Failure ClassInfo) :
      MayAnswer v (next outcome) → MayAnswer v (.consult className next)

theorem Consultation.Settles.eq_of_mayAnswer {α : Type} {v w : α} {x : Consultation α}
    (hv : x.Settles v) (hw : x.MayAnswer w) : w = v := by
  induction hw with
  | answer => cases hv; rfl
  | note _ ih =>
    cases hv with
    | note h => exact ih h
  | consult outcome _ ih =>
    cases hv with
    | consult h => exact ih (h outcome)

/-- What the extension adds to a class is settled by the class. -/
def MemberExtension.Settled {α : Type} (x : MemberExtension α) : Prop :=
  ∀ c, x.appliesTo c = true → ∃ members, (x.members c).Settles members

/-- The first class becomes the second when extensions add members to it, one after the other. -/
inductive Extended {α : Type} (add : ClassInfo → List α → ClassInfo) :
    List (MemberExtension α) → ClassInfo → ClassInfo → Prop where
  | done {c : ClassInfo} : Extended add [] c c
  | skip {x : MemberExtension α} {xs : List (MemberExtension α)} {c d : ClassInfo} :
      x.appliesTo c = false → Extended add xs c d → Extended add (x :: xs) c d
  | apply {x : MemberExtension α} {xs : List (MemberExtension α)} {c d : ClassInfo}
      {members : List α} :
      x.appliesTo c = true → (x.members c).MayAnswer members →
      Extended add xs (add c members) d → Extended add (x :: xs) c d

namespace Extended

variable {α β : Type} {add : ClassInfo → List α → ClassInfo} {xs : List (MemberExtension α)}
  {c d d' : ClassInfo}

theorem unique (hs : ∀ x ∈ xs, x.Settled) (h : Extended add xs c d) (h' : Extended add xs c d') :
    d = d' := by
  induction h with
  | done => cases h'; rfl
  | skip happ _ ih =>
    cases h' with
    | skip _ h' => exact ih (fun x hx => hs x (List.mem_cons_of_mem _ hx)) h'
    | apply happ' _ _ => exact absurd happ' (by simp [happ])
  | apply happ hm _ ih =>
    cases h' with
    | skip happ' _ => exact absurd happ (by simp [happ'])
    | apply _ hm' h' =>
      obtain ⟨v, hv⟩ := hs _ List.mem_cons_self _ happ
      rw [hv.eq_of_mayAnswer hm] at ih
      rw [hv.eq_of_mayAnswer hm'] at h'
      exact ih (fun x hx => hs x (List.mem_cons_of_mem _ hx)) h'

/-- What each addition preserves holds in the end. -/
theorem preserves (P : ClassInfo → Prop) (hadd : ∀ c members, P c → P (add c members))
    (h : Extended add xs c d) (hc : P c) : P d := by
  induction h with
  | done => exact hc
  | skip _ _ ih => exact ih hc
  | apply _ _ _ ih => exact ih (hadd _ _ hc)

theorem keeps (view : ClassInfo → β) (hadd : ∀ c members, view (add c members) = view c)
    (h : Extended add xs c d) : view d = view c := by
  refine h.preserves (fun b => view b = view c) ?_ rfl
  intro b members hb
  exact (hadd b members).trans hb

end Extended

namespace SymbolTable

/-- What all member extensions add to a class is settled by the class. -/
structure Settled (t : SymbolTable) : Prop where
  properties : ∀ x ∈ t.propertyExtensions, x.Settled
  methods : ∀ x ∈ t.methodExtensions, x.Settled

structure Unextended (t : SymbolTable) : Prop where
  properties : t.propertyExtensions = []
  methods : t.methodExtensions = []

theorem Unextended.settled {t : SymbolTable} (h : t.Unextended) : t.Settled :=
  ⟨by simp [h.properties], by simp [h.methods]⟩

/-! ### Classes -/

/-- A name stands for a class that its declaration describes. -/
inductive Assembles (t : SymbolTable) : String → ClassInfo → Prop where
  | intro {name : String} {decl : ClassDecl} {info : String → ClassInfo} {c d : ClassInfo}
      (exist : t.source.classExists name = .ok true)
      (declared : t.source.class? name = some decl)
      (above : ∀ above ∈ decl.above, Assembles t above (info above))
      (properties : Extended ClassInfo.addProperties t.propertyExtensions (decl.assemble info) c)
      (methods : Extended ClassInfo.addMethods t.methodExtensions c d) : Assembles t name d

variable {t : SymbolTable} {name : String} {c d : ClassInfo}

theorem Assembles.grounded (h : t.Assembles name c) : t.source.Grounded name := by
  induction h with
  | intro exist declared _ _ _ ih =>
    refine .intro ⟨exist, by simp [declared]⟩ ?_
    rintro above ⟨decl, hd, hmem⟩
    cases declared.symm.trans hd
    exact ih above hmem

theorem Assembles.unique (hs : t.Settled) (h : t.Assembles name c) (h' : t.Assembles name d) :
    c = d := by
  induction h generalizing d with
  | intro _ declared _ properties methods ih =>
    cases h' with
    | intro _ declared' above' properties' methods' =>
      cases declared.symm.trans declared'
      have hinfo := ClassDecl.assemble_congr fun above hmem => ih above hmem (above' above hmem)
      rw [hinfo] at properties
      cases properties.unique hs.properties properties'
      exact methods.unique hs.methods methods'

end SymbolTable

end PhpCheck
