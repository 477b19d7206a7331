/-
  PhpCheck/Proofs/Classes/MemberKind.lean
  =======================================
  **Methods and properties** — what either sort of member goes through when a
  class is put together.

  Both are declared, moved from traits and inherited in the same way, so what is
  said of one is said of the other: a statement is about a `MemberKind`, and the
  equations below are the only ones that look at the two kinds one by one.
  `member?_assemble` is the sum of them: what an assembled class has under a
  name, searched for where it can come from.
-/
import PhpCheck.Proofs.Hierarchy.Lineage

namespace PhpCheck

inductive MemberKind where
  | method | property

namespace MemberKind

def Info : MemberKind → Type
  | .method => MethodInfo
  | .property => PropertyInfo

def membership : (kind : MemberKind) → kind.Info → Membership
  | .method, m => m.toMembership
  | .property, p => p.toMembership

def isPrivate (kind : MemberKind) (v : kind.Info) : Bool := (kind.membership v).isPrivate

def declaringClass (kind : MemberKind) (v : kind.Info) : String :=
  (kind.membership v).declaringClass

def member? : (kind : MemberKind) → ClassInfo → String → Option kind.Info
  | .method, c, name => c.method? name
  | .property, c, name => c.property? name

/-- The member that others inherit. -/
def inherited? (kind : MemberKind) (c : ClassInfo) (name : String) : Option kind.Info :=
  (kind.member? c name).filter fun v => !kind.isPrivate v

/-- The members that a declaration lists, under their names. -/
def own : (kind : MemberKind) → ClassDecl → List (String × kind.Info)
  | .method, c => c.methods.map fun m => (m.name, m.info c)
  | .property, c => c.properties.map fun p => (p.name, p.info c)

/-- The last member that a declaration lists under a name. -/
def own? (kind : MemberKind) (c : ClassDecl) (name : String) : Option kind.Info :=
  (kind.own c).reverse.lookup name

/-- The member of a trait in a class that uses the trait. -/
def moved : (kind : MemberKind) → (traitName className : String) → kind.Info → kind.Info
  | .method, traitName, className, m => m.moved traitName className
  | .property, traitName, className, p => p.moved traitName className

variable {kind : MemberKind} {name : String}

/-! ### Members that change place -/

theorem declaringClass_moved {traitName className : String} {v : kind.Info} :
    kind.declaringClass (kind.moved traitName className v) = className := by
  cases kind <;> rfl

theorem declaringClass_own? {decl : ClassDecl} {v : kind.Info} (h : kind.own? decl name = some v) :
    kind.declaringClass v = decl.name := by
  have hmem : (name, v) ∈ kind.own decl := List.mem_reverse.mp (NameMap.mem_of_lookup h)
  cases kind with
  | method =>
    obtain ⟨m, _, hm⟩ := List.mem_map.mp hmem
    cases hm
    rfl
  | property =>
    obtain ⟨q, _, hq⟩ := List.mem_map.mp hmem
    cases hq
    rfl

/-! ### Parts of a class -/

theorem member?_info (decl : ClassDecl) : kind.member? decl.info name = kind.own? decl name := by
  cases kind <;> exact NameMap.get?_ofList _ _

theorem member?_useTrait (c used : ClassInfo) :
    kind.member? (c.useTrait used) name
      = (kind.member? c name).or ((kind.member? used name).map (kind.moved used.name c.name)) := by
  cases kind <;>
    · show NameMap.get? (NameMap.extend _ _) _ = _
      rw [NameMap.get?_extend, NameMap.get?_filterMap]
      exact congrArg _ Option.map_eq_bind.symm

theorem member?_inherit (c above : ClassInfo) :
    kind.member? (c.inherit above) name = (kind.member? c name).or (kind.inherited? above name) := by
  have hfilter : ∀ {α : Type} (o : Option α) (hide : α → Bool),
      (o.bind fun v => if hide v then none else some v) = o.filter fun v => !hide v := by
    intro α o hide
    cases o with
    | none => rfl
    | some v => cases h : hide v <;> simp [h, Option.filter]
  cases kind <;>
    · show NameMap.get? (NameMap.extend _ _) _ = _
      rw [NameMap.get?_extend, NameMap.get?_filterMap]
      exact congrArg _ (hfilter _ _)

theorem member?_extendParent (c parent : ClassInfo) :
    kind.member? (c.extendParent parent) name
      = (kind.member? c name).or (kind.inherited? parent name) := by
  rw [ClassInfo.extendParent, member?_inherit]
  cases kind <;> rfl

theorem member?_implement (c interface : ClassInfo) :
    kind.member? (c.implement interface) name
      = (kind.member? c name).or (kind.inherited? interface name) := by
  rw [ClassInfo.implement, member?_inherit]
  cases kind <;> rfl

theorem member?_withoutRepeats (c : ClassInfo) :
    kind.member? c.withoutRepeats name = kind.member? c name := by
  cases kind <;> rfl

/-! ### Whole classes -/

theorem member?_foldl_take (take : ClassInfo → ClassInfo → ClassInfo)
    (piece : String → ClassInfo → Option kind.Info)
    (hname : ∀ c i, (take c i).name = c.name)
    (h : ∀ c i, kind.member? (take c i) name = (kind.member? c name).or (piece c.name i))
    (names : List String) (c : ClassInfo) (info : String → ClassInfo) :
    kind.member? (names.foldl (fun c n => take c (info n)) c) name
      = (kind.member? c name).or (names.findSome? fun n => piece c.name (info n)) := by
  induction names generalizing c with
  | nil => simp
  | cons n rest ih =>
    rw [List.foldl_cons, ih, h, hname, List.findSome?_cons, Option.or_assoc]
    cases piece c.name (info n) <;> simp

/-- What an assembled class has under a name: its own member, or else that of a trait, of the
    parent or of an interface. -/
theorem member?_assemble (decl : ClassDecl) (info : String → ClassInfo) :
    kind.member? (decl.assemble info) name =
      (((kind.own? decl name).or (decl.traits.findSome? fun used =>
        (kind.member? (info used) name).map (kind.moved (info used).name decl.name))).or
      (decl.parent.bind fun q => kind.inherited? (info q) name)).or
      (decl.interfaces.findSome? fun j => kind.inherited? (info j) name) := by
  have htraits := member?_foldl_take ClassInfo.useTrait
    (fun className used => (kind.member? used name).map (kind.moved used.name className))
    (fun _ _ => rfl) member?_useTrait decl.traits decl.info info
  have hparent := member?_foldl_take ClassInfo.extendParent (fun _ q => kind.inherited? q name)
    (fun _ _ => rfl) member?_extendParent decl.parent.toList
    (decl.traits.foldl (fun c used => c.useTrait (info used)) decl.info) info
  have hinterfaces := member?_foldl_take ClassInfo.implement (fun _ j => kind.inherited? j name)
    (fun _ _ => rfl) member?_implement decl.interfaces
    (decl.parent.toList.foldl (fun c q => c.extendParent (info q))
      (decl.traits.foldl (fun c used => c.useTrait (info used)) decl.info)) info
  have hbind : decl.parent.toList.findSome? (fun q => kind.inherited? (info q) name)
      = decl.parent.bind fun q => kind.inherited? (info q) name := by
    cases decl.parent <;> simp
  rw [ClassDecl.assemble, member?_withoutRepeats, hinterfaces, hparent, htraits, hbind,
    member?_info]
  rfl

end MemberKind

end PhpCheck
