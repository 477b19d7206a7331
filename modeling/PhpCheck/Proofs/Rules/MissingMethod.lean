/-
  PhpCheck/Proofs/Rules/MissingMethod.lean
  ========================================
  **Missing methods** — what is said of a call of a method that the class has not.

  The rule looks for the method in the ancestors, the nearest first.  The first
  method that it finds it calls private, without a look at its visibility, and
  it can: all that is not private is inherited, so a method of an ancestor that
  the class has not is private, or was hidden on the way by one that is.  As the
  nearest ancestor with the name is taken, it is that one.

  The search goes from a class to its parent (`Assembles.exists_parent`), and the
  invariant is that the class it stands at lacks the method
  (`missingMethod_sought`).  This holds with member extensions as well.
-/
import PhpCheck.Proofs.Analysis.Order
import PhpCheck.Proofs.Classes.Inheritance
import PhpCheck.Proofs.Rules.Wording

namespace PhpCheck

open Analysis

variable {t : SymbolTable} {p : Program} {m m' : Memory} {e : Env} {c : ClassInfo}
  {f : MethodInfo} {C name : String}

/-! ### Methods by name -/

namespace ClassInfo

def HasMethod (c : ClassInfo) (f : MethodInfo) : Prop := ∃ key, c.method? key = some f

/-- No method of the class has this name, up to case. -/
def Lacks (c : ClassInfo) (name : String) : Prop :=
  ∀ f, c.HasMethod f → Text.sameName f.name name = false

/-- The methods of the class that have this name, up to case, are all private. -/
def KeepsPrivate (c : ClassInfo) (name : String) : Prop :=
  ∀ f, c.HasMethod f → Text.sameName f.name name = true → f.isPrivate = true

theorem hasMethod_of_methodIgnoringCase? (hc : c.NamesMethods)
    (h : c.methodIgnoringCase? name = some f) :
    c.HasMethod f ∧ Text.sameName f.name name = true := by
  rcases Option.or_eq_some_iff.mp h with hexact | ⟨-, hfound⟩
  · refine ⟨⟨name, hexact⟩, ?_⟩
    rw [hc name f hexact]
    exact Text.sameName_self name
  · obtain ⟨⟨key, g⟩, hfind, rfl⟩ := Option.map_eq_some_iff.mp hfound
    have hentry : c.method? key = some g :=
      NameMap.lookup_of_mem c.methods.nodup (List.mem_of_find?_eq_some hfind)
    have hname := List.find?_some hfind
    exact ⟨⟨key, hentry⟩, by rwa [hc key g hentry]⟩

theorem lacks_of_methodIgnoringCase? (hc : c.NamesMethods)
    (h : c.methodIgnoringCase? name = none) : c.Lacks name := by
  obtain ⟨-, hfound⟩ := Option.or_eq_none_iff.mp h
  rw [Option.map_eq_none_iff, List.find?_eq_none] at hfound
  rintro f ⟨key, hf⟩
  have hother := hfound (key, f) (NameMap.mem_of_lookup hf)
  rw [hc key f hf]
  simpa using hother

theorem methodIgnoringCase?_of_lacks (hc : c.NamesMethods) (h : c.Lacks name) :
    c.methodIgnoringCase? name = none := by
  cases hfound : c.methodIgnoringCase? name with
  | none => rfl
  | some f =>
    obtain ⟨hf, hname⟩ := hasMethod_of_methodIgnoringCase? hc hfound
    rw [h f hf] at hname
    cases hname

/-- What a class lacks, its parent keeps private. -/
theorem Lacks.keepsPrivate {parent : ClassInfo} (h : c.Lacks name) (hc : c.NamesMethods)
    (hparent : parent.NamesMethods)
    (hinherits : ∀ {key : String} {v : MethodInfo},
      MemberKind.inherited? .method parent key = some v → ∃ w, c.method? key = some w) :
    parent.KeepsPrivate name := by
  rintro f ⟨key, hf⟩ hname
  cases hvisible : f.isPrivate with
  | true => rfl
  | false =>
    have hshown : (!MemberKind.isPrivate .method f) = true := by
      show (!f.isPrivate) = true
      rw [hvisible]
      rfl
    have hinherited : MemberKind.inherited? .method parent key = some f :=
      Option.filter_eq_some_iff.mpr ⟨hf, hshown⟩
    obtain ⟨w, hw⟩ := hinherits hinherited
    have hother := h w ⟨key, hw⟩
    rw [hc key w hw, ← hparent key f hf, hname] at hother
    cases hother

end ClassInfo

/-! ### Complaints about missing methods -/

namespace Complaint

variable {k : Complaint}

/-- The message says that a method is missing: a parent keeps it private, or there is none. -/
def SaysMissing (k : Complaint) : Prop :=
  k.Begins "Call to private method " ∨ k.Begins "Call to an undefined method "

theorem not_saysMissing_inaccessibleMethod (declaringClass method : String) :
    ¬ (inaccessibleMethod declaringClass method).SaysMissing := by
  have hstart := begins_inaccessibleMethod declaringClass method
  rintro (hwords | hwords)
  · exact hstart.not_begins (by decide) hwords
  · exact hstart.not_begins (by decide) hwords

theorem not_saysMissing_methodCase (declaringClass method written : String) :
    ¬ (methodCase declaringClass method written).SaysMissing := by
  have hstart := begins_methodCase declaringClass method written
  rintro (hwords | hwords)
  · exact hstart.not_begins (by decide) hwords
  · exact hstart.not_begins (by decide) hwords

theorem AboutArguments.not_saysMissing {callee : String}
    (h : k.AboutArguments (.method callee)) : ¬ k.SaysMissing := by
  rintro (hwords | hwords) <;> rcases h.begins with hstart | hstart
  · exact (hstart.of_append : k.Begins "Method ").not_begins (by decide) hwords
  · exact hstart.not_begins (by decide) hwords
  · exact (hstart.of_append : k.Begins "Method ").not_begins (by decide) hwords
  · exact hstart.not_begins (by decide) hwords

end Complaint

namespace SymbolTable

/-! ### The search -/

/-- The complaint about a method that a class lacks is right: an ancestor has the method and keeps
    it private, or no ancestor has it. -/
inductive Sought (t : SymbolTable) (className name : String) (ancestors : List String) :
    Complaint → Prop where
  | keptPrivate {P : String} {parent : ClassInfo} {f : MethodInfo} :
      P ∈ ancestors → t.Builds P parent → parent.HasMethod f →
      Text.sameName f.name name = true → parent.KeepsPrivate name →
      Sought t className name ancestors (.privateMethodOfParent f.name P)
  | undefined :
      (∀ P ∈ ancestors, ∃ parent, t.Builds P parent ∧ parent.Lacks name) →
      Sought t className name ancestors (.undefinedMethod className name)

/-- The search goes on behind an ancestor that lacks the method. -/
theorem Sought.cons {className P : String} {parent : ClassInfo} {rest : List String}
    {complaint : Complaint} (h : t.Sought className name rest complaint)
    (hparent : t.Builds P parent) (hlacks : parent.Lacks name) :
    t.Sought className name (P :: rest) complaint := by
  cases h with
  | keptPrivate hmem hbuilds hf hname hprivate =>
    exact .keptPrivate (List.mem_cons_of_mem _ hmem) hbuilds hf hname hprivate
  | undefined hothers =>
    refine .undefined ?_
    intro Q hQ
    rcases List.mem_cons.mp hQ with rfl | hQ
    · exact ⟨parent, hparent, hlacks⟩
    · exact hothers Q hQ

/-- The search from a class that lacks the method, by induction on the ancestors. -/
theorem missingMethod_sought (hp : t.source = p.source) (hs : t.Settled) (hm : AtRest t m)
    (sought : ClassInfo) (hc : t.Assembles C c) (hlacks : c.Lacks name) :
    ∃ complaint, ((t.missingMethod sought name c.ancestors).runFrom m).1 = .ok complaint ∧
      t.Sought sought.name name c.ancestors complaint := by
  generalize hchain : c.ancestors = chain
  induction chain generalizing C c m with
  | nil => exact ⟨_, rfl, .undefined (by simp)⟩
  | cons P rest ih =>
    obtain ⟨parent, hparent, hrest, hinherits⟩ := hc.exists_parent hp hchain
    have hnames := hparent.namesMethods
    have hbuilds := hparent.builds hs
    obtain ⟨n, hr, hnext⟩ := hparent.runFrom_eq hs hm
    rw [missingMethod, runFrom_bind_ok hr]
    cases hfound : parent.methodIgnoringCase? name with
    | some f =>
      obtain ⟨hf, hname⟩ := ClassInfo.hasMethod_of_methodIgnoringCase? hnames hfound
      refine ⟨_, rfl, ?_⟩
      rw [hparent.name_eq hp]
      exact .keptPrivate List.mem_cons_self hbuilds hf hname
        (hlacks.keepsPrivate hc.namesMethods hnames (hinherits .method))
    | none =>
      have hmissing := ClassInfo.lacks_of_methodIgnoringCase? hnames hfound
      obtain ⟨complaint, hrun, hsought⟩ := ih hnext hparent hmissing hrest
      exact ⟨complaint, hrun, hsought.cons hbuilds hmissing⟩

/-! ### The rule -/

/-- In this memory the call is one of a name on an instance of the class. -/
structure MethodCallOn (t : SymbolTable) (m : Memory) (e : Env) (receiver : Expr) (called : Name)
    (name C : String) (c : ClassInfo) : Prop where
  literal : called = .literal name
  typed : ∃ type, ((receiver.infer t e).runFrom m).1 = .ok type ∧ type.className? = some C
  builds : t.Builds C c

variable {receiver : Expr} {called : Name} {settings : Settings} {span : Span} {args : List Arg}
  {findings : List Finding}

theorem methodCallFindings_eq (hopen : e.inBoundClosure = false) (settings : Settings)
    (span : Span) (receiver : Expr) (name : String) (args : List Arg) :
    methodCallFindings settings t e (.expr (.methodCall span receiver (.literal name) args))
      = receiver.infer t e >>= fun type => t.receiverFindings e settings type name args := by
  unfold methodCallFindings
  rw [hopen]
  rfl

theorem runFrom_receiverFindings {type : PhpType} (hclass : type.className? = some C)
    (hc : (t.classInfo C).runFrom m = (.ok c, m')) (settings : Settings) (name : String)
    (args : List Arg) :
    (t.receiverFindings e settings type name args).runFrom m
      = (do return Finding.ofComplaints (← t.methodComplaints e settings c name args) :
          Analysis (List Finding)).runFrom m' := by
  unfold receiverFindings
  rw [hclass]
  exact runFrom_bind_ok (runFrom_classInfo?_of_ok hc) _

/-- Where there is something to say about a call on this type, it is the type of a class. -/
theorem receiverFindings_of_ok {type : PhpType}
    (hrun : ((t.receiverFindings e settings type name args).runFrom m).1 = .ok findings)
    (hne : findings ≠ []) :
    ∃ C c m', type.className? = some C ∧ (t.classInfo C).runFrom m = (.ok c, m') := by
  unfold receiverFindings at hrun
  cases hclass : type.className? with
  | none =>
    rw [hclass] at hrun
    cases hrun
    exact absurd rfl hne
  | some C =>
    rw [hclass] at hrun
    dsimp only at hrun
    rcases hr : (t.classInfo? C).runFrom m with ⟨cause | found, n⟩
    · rw [runFrom_bind_error hr] at hrun
      cases hrun
    · rw [runFrom_bind_ok hr] at hrun
      cases found with
      | none =>
        cases hrun
        exact absurd rfl hne
      | some c => exact ⟨C, c, n, rfl, runFrom_classInfo_of_some hr⟩

/-- What is said about a call is said about the class of the receiver. -/
theorem MethodCallOn.runFrom_findings (hp : t.source = p.source) (hs : t.Settled)
    (hm : AtRest t m) (h : t.MethodCallOn m e receiver called name C c)
    (hopen : e.inBoundClosure = false) (settings : Settings) (span : Span) (args : List Arg) :
    ∃ n, AtRest t n ∧
      (methodCallFindings settings t e (.expr (.methodCall span receiver called args))).runFrom m
        = (do return Finding.ofComplaints (← t.methodComplaints e settings c name args) :
            Analysis (List Finding)).runFrom n := by
  obtain ⟨rfl, ⟨type, htype, hclass⟩, hbuilds⟩ := h
  have hc := hbuilds.assembles hp
  have hfirst := (receiver.infer_repeatable t e).atRest hm
  rcases hr : (receiver.infer t e).runFrom m with ⟨r, m₁⟩
  rw [hr] at htype hfirst
  obtain rfl : r = .ok type := htype
  obtain ⟨m₂, hlook, hsecond⟩ := hc.runFrom_eq hs hfirst
  refine ⟨m₂, hsecond, ?_⟩
  rw [methodCallFindings_eq hopen, runFrom_bind_ok hr, runFrom_receiverFindings hclass hlook]

/-- Where there is something to say about a call, its receiver has a class. -/
theorem exists_methodCallOn (hs : t.Settled) (hm : AtRest t m)
    (hrun : ((methodCallFindings settings t e
      (.expr (.methodCall span receiver called args))).runFrom m).1 = .ok findings)
    (hne : findings ≠ []) :
    e.inBoundClosure = false ∧ ∃ name C c, t.MethodCallOn m e receiver called name C c := by
  cases called with
  | computed x =>
    cases hrun
    exact absurd rfl hne
  | literal name =>
    cases hopen : e.inBoundClosure with
    | true =>
      unfold methodCallFindings at hrun
      rw [hopen] at hrun
      cases hrun
      exact absurd rfl hne
    | false =>
      refine ⟨rfl, name, ?_⟩
      rw [methodCallFindings_eq hopen] at hrun
      have hfirst := (receiver.infer_repeatable t e).atRest hm
      rcases hr : (receiver.infer t e).runFrom m with ⟨cause | type, m₁⟩
      · rw [runFrom_bind_error hr] at hrun
        cases hrun
      · rw [runFrom_bind_ok hr] at hrun
        rw [hr] at hfirst
        obtain ⟨C, c, m₂, hclass, hlook⟩ := receiverFindings_of_ok hrun hne
        have hc := assembles_of_ok hfirst.faithful (by rw [hlook])
        exact ⟨C, c, rfl, ⟨type, by rw [hr], hclass⟩, hc.builds hs⟩

/-- A method that the class has is not said to be missing. -/
theorem methodComplaints_of_some (e : Env) (settings : Settings) (args : List Arg)
    (hfound : c.methodIgnoringCase? name = some f) :
    Yields (fun cs => ∀ k ∈ cs, ¬ k.SaysMissing) (t.methodComplaints e settings c name args) := by
  have hspelling : ∀ k ∈ (if f.name = name then []
      else [Complaint.methodCase f.declaringClass f.name name]), ¬ k.SaysMissing := by
    by_cases hname : f.name = name
    · simp [hname]
    · rw [if_neg hname, List.forall_mem_singleton]
      exact Complaint.not_saysMissing_methodCase f.declaringClass f.name name
  unfold methodComplaints
  rw [hfound]
  refine .after _ fun usable => ?_
  cases usable with
  | false =>
    refine .of_pure ?_
    rw [List.forall_mem_singleton]
    exact Complaint.not_saysMissing_inaccessibleMethod f.declaringClass f.name
  | true =>
    exact t.argComplaints_append_yields settings f.toSignature args
      (fun k (hk : k.AboutArguments (.method (f.declaringClass ++ "::" ++ f.name ++ "()"))) =>
        hk.not_saysMissing) hspelling

/-- About a method that the class lacks one thing is said, and it is right. -/
theorem methodComplaints_of_lacks (hp : t.source = p.source) (hs : t.Settled) (hm : AtRest t m)
    (e : Env) (settings : Settings) (args : List Arg) (hc : t.Assembles C c)
    (hlacks : c.Lacks name) :
    ∃ complaint, ((t.methodComplaints e settings c name args).runFrom m).1 = .ok [complaint] ∧
      t.Sought C name c.ancestors complaint := by
  obtain ⟨complaint, hrun, hsought⟩ := missingMethod_sought hp hs hm c hc hlacks
  rw [hc.name_eq hp] at hsought
  refine ⟨complaint, ?_, hsought⟩
  rcases hr : (t.missingMethod c name c.ancestors).runFrom m with ⟨r, n⟩
  rw [hr] at hrun
  obtain rfl : r = .ok complaint := hrun
  unfold methodComplaints
  rw [ClassInfo.methodIgnoringCase?_of_lacks hc.namesMethods hlacks]
  dsimp only
  rw [runFrom_bind_ok hr]
  rfl

/-- **A method that the class lacks is reported as missing.**  Nothing else is said about the
    call. -/
theorem missing_method_reported (hp : t.source = p.source) (hs : t.Settled) (hm : t.Arises m)
    (hcall : t.MethodCallOn m e receiver called name C c) (hopen : e.inBoundClosure = false)
    (hlacks : c.Lacks name) (settings : Settings) (span : Span) (args : List Arg) :
    ∃ complaint, ((methodCallFindings settings t e
        (.expr (.methodCall span receiver called args))).runFrom m).1 = .ok [{ complaint }] ∧
      t.Sought C name c.ancestors complaint := by
  obtain ⟨n, hn, hfindings⟩ := hcall.runFrom_findings hp hs hm.atRest hopen settings span args
  obtain ⟨complaint, hrun, hsought⟩ :=
    methodComplaints_of_lacks hp hs hn e settings args (hcall.builds.assembles hp) hlacks
  refine ⟨complaint, ?_, hsought⟩
  rcases hr : (t.methodComplaints e settings c name args).runFrom n with ⟨r, n'⟩
  rw [hr] at hrun
  obtain rfl : r = .ok [complaint] := hrun
  rw [hfindings, runFrom_bind_ok hr]
  rfl

/-- **A method that is reported as missing is missing.**  If the rule for calls of methods gives
    an answer, it calls a method private only if an ancestor of the receiver's class has it, and
    each method of this name that the ancestor has is private; and it calls a method undefined
    only if neither the receiver's class nor an ancestor of it has a method of this name. -/
theorem missing_method_report_sound (hp : t.source = p.source) (hs : t.Settled)
    (hm : t.Arises m) (settings : Settings) (e : Env) (span : Span) (receiver : Expr)
    (called : Name) (args : List Arg) {findings : List Finding}
    (hrun : ((methodCallFindings settings t e
      (.expr (.methodCall span receiver called args))).runFrom m).1 = .ok findings) :
    ∀ finding ∈ findings,
      (finding.complaint.Begins "Call to private method " →
        ∃ name C c P parent f, t.MethodCallOn m e receiver called name C c ∧
          finding.complaint = .privateMethodOfParent f.name P ∧
          t.source.ParentChain C c.ancestors ∧ P ∈ c.ancestors ∧ t.Builds P parent ∧
          parent.HasMethod f ∧ Text.sameName f.name name = true ∧ parent.KeepsPrivate name) ∧
      (finding.complaint.Begins "Call to an undefined method " →
        ∃ name C c, t.MethodCallOn m e receiver called name C c ∧
          finding.complaint = .undefinedMethod C name ∧
          t.source.ParentChain C c.ancestors ∧
          ∀ P ∈ C :: c.ancestors, ∃ q, t.Builds P q ∧ q.Lacks name) := by
  intro finding hmem
  obtain ⟨hopen, name, C, c, hcall⟩ :=
    exists_methodCallOn hs hm.atRest hrun (List.ne_nil_of_mem hmem)
  have hc := hcall.builds.assembles hp
  have hchain := hc.parentChain hp
  cases hfound : c.methodIgnoringCase? name with
  | some f =>
    obtain ⟨n, -, hfindings⟩ := hcall.runFrom_findings hp hs hm.atRest hopen settings span args
    have hwords : Yields (fun findings => ∀ finding ∈ findings, ¬ finding.complaint.SaysMissing)
        (do return Finding.ofComplaints (← t.methodComplaints e settings c name args)) := by
      refine (t.methodComplaints_of_some e settings args hfound).bind fun cs hcs => .of_pure ?_
      exact List.forall_mem_map.mpr hcs
    rw [hfindings] at hrun
    have hother := hwords n findings hrun finding hmem
    exact ⟨fun hbegins => absurd (.inl hbegins) hother, fun hbegins => absurd (.inr hbegins) hother⟩
  | none =>
    have hlacks := ClassInfo.lacks_of_methodIgnoringCase? hc.namesMethods hfound
    obtain ⟨complaint, honly, hsought⟩ :=
      missing_method_reported hp hs hm hcall hopen hlacks settings span args
    cases hrun.symm.trans honly
    obtain rfl := List.mem_singleton.mp hmem
    cases hsought with
    | keptPrivate habove hbuilds hf hname hprivate =>
      constructor
      · intro _
        exact ⟨name, C, c, _, _, _, hcall, rfl, hchain, habove, hbuilds, hf, hname, hprivate⟩
      · intro hbegins
        have hprivateStart := Complaint.begins_privateMethodOfParent
        exact absurd hbegins ((hprivateStart _ _).not_begins (by decide))
    | undefined hothers =>
      constructor
      · intro hbegins
        have hundefinedStart := Complaint.begins_undefinedMethod
        exact absurd hbegins ((hundefinedStart _ _).not_begins (by decide))
      · intro _
        refine ⟨name, C, c, hcall, rfl, hchain, ?_⟩
        exact List.forall_mem_cons.mpr ⟨⟨c, hcall.builds, hlacks⟩, hothers⟩

end SymbolTable

/-! ### A cattery -/

namespace Cattery

/-- All animals have an age, which they keep to themselves. -/
def program : Program :=
  [({ name := "Animal", methods := [{ name := "feed" },
      { name := "age", visibility := .classOnly }] } : ClassDecl),
    { name := "Cat", parent := some "Animal", methods := [{ name := "purr" }] },
    { name := "Kitten", parent := some "Cat" }].foldl Program.addClass {}

def table : SymbolTable := { source := program.source, methodExtensions := [cloning] }

theorem settled : table.Settled where
  properties := by simp [table]
  methods := cloneable_settled.methods

def yard : Env := .ofFile "yard.php" false

def kitten : Expr := .new {} (.literal "Kitten") []

def asking (method : String) : Node :=
  .expr (.methodCall {} kitten (.literal method) [])

theorem kitten_chain : table.source.ParentChain "Kitten" ["Cat", "Animal"] :=
  .step rfl rfl (.step rfl rfl (.root rfl rfl))

/-- A kitten is asked for its age, and to bark. -/
theorem kitten_asked :
    table.source = program.source ∧ table.Settled ∧ table.Arises {} ∧
      ((methodCallFindings {} table yard (asking "AGE")).runFrom {}).1
        = .ok [⟨.privateMethodOfParent "age" "Animal", none⟩] ∧
      (∃ animal, table.Builds "Animal" animal ∧ animal.KeepsPrivate "AGE") ∧
      ((methodCallFindings {} table yard (asking "bark")).runFrom {}).1
        = .ok [⟨.undefinedMethod "Kitten" "bark", none⟩] ∧
      ∀ P ∈ ["Kitten", "Cat", "Animal"], ∃ c, table.Builds P c ∧ c.Lacks "bark" := by
  have hage : ((methodCallFindings {} table yard (asking "AGE")).runFrom {}).1
      = .ok [⟨.privateMethodOfParent "age" "Animal", none⟩] := rfl
  have hbark : ((methodCallFindings {} table yard (asking "bark")).runFrom {}).1
      = .ok [⟨.undefinedMethod "Kitten" "bark", none⟩] := rfl
  have hprivate := (SymbolTable.missing_method_report_sound rfl settled .start {} yard {} kitten
    (.literal "AGE") [] hage _ List.mem_cons_self).1 (Complaint.begins_privateMethodOfParent _ _)
  have hundefined := (SymbolTable.missing_method_report_sound rfl settled .start {} yard {} kitten
    (.literal "bark") [] hbark _ List.mem_cons_self).2 (Complaint.begins_undefinedMethod _ _)
  refine ⟨rfl, settled, .start, hage, ?_, hbark, ?_⟩
  · obtain ⟨name, C, c, P, animal, f, hcall, hwords, -, -, hbuilds, -, -, hkept⟩ := hprivate
    cases hcall.literal
    obtain ⟨-, rfl⟩ := Complaint.privateMethodOfParent.inj hwords
    exact ⟨animal, hbuilds, hkept⟩
  · obtain ⟨name, C, c, hcall, hwords, hchain, hlack⟩ := hundefined
    cases hcall.literal
    cases hwords
    rw [hchain.unique kitten_chain] at hlack
    exact hlack

end Cattery

end PhpCheck
