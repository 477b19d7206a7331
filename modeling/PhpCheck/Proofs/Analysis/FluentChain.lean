/-
  PhpCheck/Proofs/Analysis/FluentChain.lean
  =========================================
  **Fluent chains** — calls of methods that return `static`, one on the result of
  the other, keep to the class they start from.

  On its way into a class a declared `static` goes through other classes: it is
  bound in the class that declares the method, bound again in each class or trait
  that takes the method from a trait, and left alone where the method is
  inherited.  Whatever the way, the method returns `static` just if its
  declaration says so, and null just if its declaration allows it
  (`Supplies.isStatic_iff`, `Supplies.nullable_eq`).  A call then has the type of
  its receiver, so from one call to the next nothing changes but that null may be
  added.
-/
import PhpCheck.Proofs.Analysis.Answers
import PhpCheck.Proofs.Classes.Inheritance
import PhpCheck.Proofs.Classes.TraitMembers

namespace PhpCheck

open Analysis

/-! ### The declared type -/

namespace PhpType

/-- The type says `static`: by this name, in any case, or because it is bound to a class already. -/
def SaysStatic (t : PhpType) : Prop := t.IsOwnStatic ∨ t.isStatic = true

/-- What a name says in a class: `static`, or a class, or nothing. -/
theorem inClass_object_cases (name C : String) (parent : Option String) :
    Text.sameName name "static" = true ∧ (Kind.object name).inClass C parent = .static C ∨
    Text.sameName name "static" = false ∧ ((Kind.object name).inClass C parent = .mixed ∨
      ∃ other, (Kind.object name).inClass C parent = .object other) := by
  cases hstatic : Text.sameName name "static" with
  | true => simp [Kind.inClass, hstatic, not_self_of_static hstatic]
  | false =>
    cases hself : Text.sameName name "self" <;> cases hparent : Text.sameName name "parent" <;>
      cases parent <;> simp [Kind.inClass, hstatic, hself, hparent]

theorem isStatic_inClass_iff (t : PhpType) (C : String) (parent : Option String) :
    (t.inClass C parent).isStatic = true ↔ t.SaysStatic := by
  obtain ⟨kind, nullable, _⟩ := t
  cases kind with
  | object name =>
    rcases inClass_object_cases name C parent with ⟨hs, hk⟩ | ⟨hs, hk | ⟨other, hk⟩⟩ <;>
      simp [inClass, SaysStatic, IsOwnStatic, isStatic, hs, hk]
  | _ => simp [inClass, Kind.inClass, SaysStatic, IsOwnStatic, isStatic]

theorem isStatic_moved (t : PhpType) (T C : String) :
    (t.moved T C).isStatic = t.isStatic := by
  obtain ⟨kind, nullable, _⟩ := t
  cases kind <;> rfl

/-- A type keeps its nullability with another kind, if this is not null where it was not. -/
theorem nullable_of_kind {t : PhpType} {kind : Kind} (h : kind = .null → t.kind = .null) :
    (of kind t.nullable).nullable = t.nullable := by
  rw [nullable_of]
  by_cases hkind : kind = .null
  · simp [t.null_nullable (h hkind)]
  · simp [hkind]

theorem nullable_inClass (t : PhpType) (C : String) (parent : Option String) :
    (t.inClass C parent).nullable = t.nullable := by
  refine nullable_of_kind fun h => ?_
  cases hkind : t.kind with
  | object name =>
    rw [hkind] at h
    rcases inClass_object_cases name C parent with ⟨-, hk⟩ | ⟨-, hk | ⟨other, hk⟩⟩ <;>
      cases hk.symm.trans h
  | _ => simp_all [Kind.inClass]

theorem nullable_moved (t : PhpType) (T C : String) : (t.moved T C).nullable = t.nullable := by
  refine nullable_of_kind fun h => ?_
  cases hkind : t.kind <;> simp_all [Kind.moved]

end PhpType

/-! ### The declaration behind a member -/

/-- The declaration supplies a class with the member: it is the class's own, it supplies a trait
    from which the class takes the member, or its parent or an interface, from which it inherits
    it. -/
inductive SymbolSource.Supplies (s : SymbolSource) (kind : MemberKind) (name : String)
    (d : kind.Decl) : String → kind.Info → Prop where
  | declared {C : String} {decl : ClassDecl} :
      s.class? C = some decl → kind.decl? decl name = some d →
      Supplies s kind name d C (kind.info decl d)
  | taken {C T : String} {decl : ClassDecl} {v : kind.Info} :
      s.class? C = some decl → T ∈ decl.traits → Supplies s kind name d T v →
      Supplies s kind name d C (kind.moved T C v)
  | inherited {C K : String} {decl : ClassDecl} {v : kind.Info} :
      s.class? C = some decl → K ∈ decl.parent.toList ++ decl.interfaces →
      kind.isPrivate v = false → Supplies s kind name d K v → Supplies s kind name d C v

section Supplied

variable {t : SymbolTable} {s : SymbolSource} {p : Program} {kind : MemberKind} {name C : String}
  {c : ClassInfo}

namespace SymbolSource.Supplies

variable {d : kind.Decl} {v : kind.Info}

/-- By induction on the way of the member: each class on it binds a `static` again or leaves it. -/
theorem isStatic_iff (h : s.Supplies kind name d C v) :
    (kind.type v).isStatic = true ↔ (kind.written d).SaysStatic := by
  induction h with
  | declared _ _ => rw [MemberKind.type_info, PhpType.isStatic_inClass_iff]
  | taken _ _ _ ih => rw [MemberKind.type_moved, PhpType.isStatic_moved, ih]
  | inherited _ _ _ _ ih => exact ih

theorem nullable_eq (h : s.Supplies kind name d C v) :
    (kind.type v).nullable = (kind.written d).nullable := by
  induction h with
  | declared _ _ => rw [MemberKind.type_info, PhpType.nullable_inClass]
  | taken _ _ _ ih => rw [MemberKind.type_moved, PhpType.nullable_moved, ih]
  | inherited _ _ _ _ ih => exact ih

end SymbolSource.Supplies

/-- What a class inherits from another one, a declaration supplies. -/
theorem SymbolSource.exists_supplies_of_inherited {K : String} {decl : ClassDecl}
    {above : ClassInfo} {v : kind.Info} (hd : s.class? C = some decl)
    (hK : K ∈ decl.parent.toList ++ decl.interfaces) (hv : kind.inherited? above name = some v)
    (habove : ∀ w, kind.member? above name = some w → ∃ d, s.Supplies kind name d K w) :
    ∃ d, s.Supplies kind name d C v := by
  obtain ⟨hw, hprivate⟩ := Option.filter_eq_some_iff.mp hv
  obtain ⟨d, hsupplies⟩ := habove v hw
  exact ⟨d, .inherited hd hK (by simpa using hprivate) hsupplies⟩

/-- What a class has after its declaration was put together with classes above it, a declaration
    supplies if it does so for each of these. -/
theorem SymbolSource.exists_supplies_of_assemble {decl : ClassDecl} {info : String → ClassInfo}
    {v : kind.Info} (hd : s.class? C = some decl) (hname : decl.name = C)
    (hnames : ∀ T ∈ decl.traits, (info T).name = T)
    (habove : ∀ K ∈ decl.above, ∀ w, kind.member? (info K) name = some w →
      ∃ d, s.Supplies kind name d K w)
    (hv : kind.member? (decl.assemble info) name = some v) :
    ∃ d, s.Supplies kind name d C v := by
  rw [MemberKind.member?_assemble, MemberKind.own?_eq] at hv
  simp only [Option.or_eq_some_iff] at hv
  rcases hv with ((hown | ⟨-, htraits⟩) | ⟨-, hparent⟩) | ⟨-, hinterfaces⟩
  · obtain ⟨d, hdecl, rfl⟩ := Option.map_eq_some_iff.mp hown
    exact ⟨d, .declared hd hdecl⟩
  · obtain ⟨T, hT, hmoved⟩ := List.exists_of_findSome?_eq_some htraits
    obtain ⟨w, hw, rfl⟩ := Option.map_eq_some_iff.mp hmoved
    obtain ⟨d, hsupplies⟩ := habove T (ClassDecl.mem_above_of_trait hT) w hw
    rw [hnames T hT, hname]
    exact ⟨d, .taken hd hT hsupplies⟩
  · obtain ⟨K, hK, hv⟩ := Option.bind_eq_some_iff.mp hparent
    exact exists_supplies_of_inherited hd (by simp [hK]) hv
      (habove K (ClassDecl.mem_above_of_parent hK))
  · obtain ⟨K, hK, hv⟩ := List.exists_of_findSome?_eq_some hinterfaces
    exact exists_supplies_of_inherited hd (by simp [hK]) hv
      (habove K (ClassDecl.mem_above_of_interface hK))

/-- Without extensions that add methods, a declaration supplies each method. -/
theorem SymbolTable.Assembles.exists_supplies (hp : t.source = p.source)
    (hadded : t.methodExtensions = []) (h : t.Assembles C c) {f : MethodInfo}
    (hf : c.method? name = some f) : ∃ d, t.source.Supplies .method name d C f := by
  induction h generalizing f with
  | @intro C decl info b c _ hd habove hx hy ih =>
    have hkeeps : ∀ (b : ClassInfo) (ps : List PropertyInfo),
        (b.addProperties ps).methods = b.methods := fun _ _ => rfl
    have hmethods : c.methods = (decl.assemble info).methods := by
      rw [hadded] at hy
      cases hy
      exact hx.keeps (·.methods) hkeeps
    have hassembled : (decl.assemble info).method? name = some f := by
      rw [← hf, ClassInfo.method?, ClassInfo.method?, hmethods]
    have hname : decl.name = C := by
      rw [hp] at hd
      exact p.named hd
    refine SymbolSource.exists_supplies_of_assemble hd hname ?_ ?_ hassembled
    · intro T hT
      exact (habove T (ClassDecl.mem_above_of_trait hT)).name_eq hp
    · intro K hK w hw
      exact ih K hK hw

end Supplied

/-! ### Chains of calls -/

/-- A call in a chain: `->method(args)`, at its place. -/
structure Link where
  span : Span
  method : String
  args : List Arg

def Link.call (l : Link) (receiver : Expr) : Expr :=
  .methodCall l.span receiver (.literal l.method) l.args

/-- The calls one after the other, each on the result of the one before. -/
def Expr.chain (x : Expr) (links : List Link) : Expr :=
  links.foldl (fun receiver l => l.call receiver) x

/-- The link calls a method of the class, this declaration supplies the class with it, and says
    that it returns `static`. -/
structure Fluent (s : SymbolSource) (C : String) (c : ClassInfo) (l : Link) (d : MethodDecl) :
    Prop where
  supplied : ∃ f, c.method? l.method = some f ∧ s.Supplies .method l.method d C f
  saysStatic : d.result.SaysStatic

section Chained

variable {t : SymbolTable} {p : Program} {C : String} {c : ClassInfo} {m n m' : Memory} {e : Env}
  {x : Expr} {nullable : Bool}

/-- A fluent call has the type of its receiver, with null if its declaration allows it. -/
theorem runFrom_infer_link {l : Link} {d : MethodDecl} (hr : t.returnExtensions = .empty)
    (hn : ∀ y, e.narrowing? y = none) (hrest : AtRest t n)
    (hc : (t.classInfo C).runFrom n = (.ok c, m'))
    (hx : (x.infer t e).runFrom m = (.ok (.object C nullable), n))
    (hl : Fluent t.source C c l d) :
    ((l.call x).infer t e).runFrom m = (.ok (.object C (d.result.nullable || nullable)), m') := by
  obtain ⟨f, hf, hsupplies⟩ := hl.supplied
  have hstatic : f.result.isStatic = true := hsupplies.isStatic_iff.mpr hl.saysStatic
  have hnull : f.result.nullable = d.result.nullable := hsupplies.nullable_eq
  have hclass : (PhpType.object C nullable).className? = some C := rfl
  have hnone : ((C :: c.ancestors).flatMap fun k => (t.returnExtensions.get? k).getD []) = [] := by
    simp [hr]
  have hanswer := SymbolTable.runFrom_methodAnswer hrest hc hf e (l.call x) hclass
  rw [hnone, List.find?_nil, Option.elim_none, PhpType.onReceiver_object, if_pos hstatic,
    hnull] at hanswer
  have hinfer : (l.call x).infer t e = x.infer t e >>= fun type =>
      t.methodAnswer e (l.call x) type l.method >>=
        ReturnAnswer.run t (CallPart.type t e x l.args) :=
    Expr.infer_methodCall_eq _ _ _ _ _ _ (hn _)
  rw [hinfer, runFrom_bind_ok hx, runFrom_bind_ok hanswer]
  rfl

/-- By induction on the links: behind each of them the class is remembered, and the receiver is
    of the class. -/
theorem runFrom_infer_chain {links : List Link} {decls : List MethodDecl}
    (hr : t.returnExtensions = .empty) (hn : ∀ y, e.narrowing? y = none) (hrest : AtRest t n)
    (hc : (t.classInfo C).runFrom n = (.ok c, m'))
    (hx : (x.infer t e).runFrom m = (.ok (.object C nullable), n))
    (h : List.Forall₂ (Fluent t.source C c) links decls) :
    ((x.chain links).infer t e).runFrom m
      = (.ok (.object C (nullable || decls.any (·.result.nullable))),
          if links.isEmpty then n else m') := by
  induction h generalizing x nullable n with
  | nil =>
    rw [List.any_nil, Bool.or_false]
    exact hx
  | @cons l d links decls hl _ ih =>
    have hfirst := runFrom_infer_link hr hn hrest hc hx hl
    have hagain := SymbolTable.runFrom_classInfo_again hrest hc
    have hrest' : AtRest t m' := by
      have hafter := (t.classInfo_transparent C).steady.atRest hrest
      rwa [hc] at hafter
    have hothers := ih hrest' hagain hfirst
    rw [ite_self] at hothers
    rw [List.any_cons, ← Bool.or_assoc, nullable.or_comm]
    exact hothers

/-- **Fluent chains keep the class.**  Let a class be found, in a table without extensions for the
    types of calls.  Behind each of its methods there is a declaration, its own or one of a trait,
    an ancestor or an interface, unless extensions add methods.  If a variable is bound to the
    class and nothing is narrowed, then any number of calls on it, one on the result of the other,
    of methods whose declarations say `static`, succeed and have the class again: with null just
    if the variable or one of the declarations has it. -/
theorem SymbolTable.infer_fluent_chain (hp : t.source = p.source)
    (hr : t.returnExtensions = .empty) (hm : t.Arises m)
    (hc : (t.classInfo C).runFrom m = (.ok c, m')) :
    (t.methodExtensions = [] → ∀ name f, c.method? name = some f →
      ∃ d, t.source.Supplies .method name d C f) ∧
    ∀ (e : Env) (written : String) (span : Span) (nullable : Bool) (links : List Link)
      (decls : List MethodDecl),
      (∀ y, e.narrowing? y = none) → e.bound? written = some (.object C nullable) →
      List.Forall₂ (Fluent t.source C c) links decls →
      ((Expr.chain (.variable span (.literal written)) links).infer t e).runFrom m
        = (.ok (.object C (nullable || decls.any (·.result.nullable))),
            if links.isEmpty then m else m') := by
  have hassembles : t.Assembles C c := assembles_of_ok hm.atRest.faithful (congrArg Prod.fst hc)
  refine ⟨fun hadded name f hf => hassembles.exists_supplies hp hadded hf, ?_⟩
  intro e written span nullable links decls hn hbound hlinks
  have hvariable : ((Expr.variable span (.literal written)).infer t e).runFrom m
      = (.ok (.object C nullable), m) := by
    rw [Expr.infer_variable hbound (hn _), runFrom_pure]
  exact runFrom_infer_chain hr hn hm.atRest hc hvariable hlinks

end Chained

/-! ### Training -/

namespace Training

def sit : MethodDecl := { name := "sit", result := .object "static" }

def groom : MethodDecl :=
  { name := "groom", visibility := .family, result := .object "Static" true }

def feed : MethodDecl := { name := "feed", result := .object "static" }

def walk : MethodDecl := { name := "walk", result := .object "STATIC" }

/-- A dog sits, is fed as an animal, groomed as the trait of animals says, and walks on a lead. -/
def school : Program :=
  [({ name := "Grooming", kind := .trait, methods := [groom] } : ClassDecl),
    { name := "Led", kind := .interface, methods := [walk] },
    { name := "Animal", traits := ["Grooming"], methods := [feed] },
    { name := "Dog", parent := some "Animal", interfaces := ["Led"], methods := [sit] }].foldl
      Program.addClass {}

def table : SymbolTable := { source := school.source }

def classroom : Env :=
  { file := "school.php", bindings := .ofList [("rex", .object "Dog")] }

def commands : List Link :=
  [⟨{}, "sit", []⟩, ⟨{}, "feed", [{ value := .int {} 2 }]⟩, ⟨.point 5 1, "groom", []⟩,
    ⟨{}, "walk", []⟩]

/-- `$rex->sit()->feed(2)->groom()->walk()`. -/
def lesson : Expr := .chain (.variable {} (.literal "rex")) commands

/-- After the lesson there is a dog again, or nothing, since grooming may fail. -/
theorem lesson_returns_dog :
    table.source = school.source ∧ table.returnExtensions = .empty ∧ table.Arises {} ∧
      (∃ dog m', (table.classInfo "Dog").runFrom {} = (.ok dog, m')) ∧
      ((lesson.infer table classroom).runFrom {}).1 = .ok (.object "Dog" true) := by
  have hdog : (table.classInfo "Dog").runFrom {} = (.ok _, _) := rfl
  have hstatic : ∀ d ∈ [sit, feed, groom, walk], d.result.SaysStatic := by
    intro d hd
    refine .inl ?_
    simp only [List.mem_cons, List.not_mem_nil, or_false] at hd
    rcases hd with rfl | rfl | rfl | rfl <;> exact ⟨_, rfl, by decide⟩
  have hfed : table.source.Supplies .method "feed" feed "Dog" _ :=
    .inherited (K := "Animal") rfl (by decide) rfl (.declared rfl rfl)
  have hgroomed : table.source.Supplies .method "groom" groom "Dog" _ :=
    .inherited (K := "Animal") rfl (by decide) rfl
      (.taken (T := "Grooming") rfl (by decide) (.declared rfl rfl))
  have hwalked : table.source.Supplies .method "walk" walk "Dog" _ :=
    .inherited (K := "Led") rfl (by decide) rfl (.declared rfl rfl)
  obtain ⟨-, hfluent⟩ := SymbolTable.infer_fluent_chain (p := school) rfl rfl .start hdog
  have hlesson := hfluent classroom "rex" {} false commands [sit, feed, groom, walk]
    (fun _ => rfl) rfl
    (.cons ⟨⟨_, rfl, .declared rfl rfl⟩, hstatic _ (by simp)⟩
      (.cons ⟨⟨_, rfl, hfed⟩, hstatic _ (by simp)⟩
        (.cons ⟨⟨_, rfl, hgroomed⟩, hstatic _ (by simp)⟩
          (.cons ⟨⟨_, rfl, hwalked⟩, hstatic _ (by simp)⟩ .nil))))
  exact ⟨rfl, rfl, .start, ⟨_, _, hdog⟩, congrArg Prod.fst hlesson⟩

end Training

end PhpCheck
