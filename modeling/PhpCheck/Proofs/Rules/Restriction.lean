/-
  PhpCheck/Proofs/Rules/Restriction.lean
  ======================================
  **Restricted static methods** — which calls are said to be of a private or
  protected method, and which methods cannot be used.

  The rule for static calls does not ask whether the method can be used
  (`SymbolTable.canUse`): it has a test of its own, by the ancestors of the class
  around.  Two things escape the test: that a closure is bound to another class,
  where visibility does not hold, and that a class may be below the class of a
  protected method by an interface.  In all other cases a call is reported just
  when the method cannot be used (`SymbolTable.unusable_iff_restricted`).

  What is reported is taken from the messages.  So the other complaints of the
  rule, those about arguments and about spelling, have to be told from the one
  about visibility by their texts.
-/
import PhpCheck.Env.Enter
import PhpCheck.Rules.StaticCalls
import PhpCheck.Proofs.Classes.Subclass
import PhpCheck.Proofs.Analysis.Order
import PhpCheck.Proofs.Rules.Wording
import Mathlib.Data.List.Nodup

namespace PhpCheck

open Analysis

variable {t : SymbolTable} {e : Env} {m m' : Memory} {A B : String}
  {a b : ClassInfo} {f : MethodInfo} {written name : String}

/-! ### What a call means -/

namespace ClassInfo

/-- The class has the method for a name, and under no other spelling one for the same name. -/
def Holds (c : ClassInfo) (name : String) (f : MethodInfo) : Prop :=
  ∃ key, c.method? key = some f ∧ Text.sameName key name ∧
    ∀ other ∈ c.methods.names, Text.sameName other name → other = key

theorem Holds.methodIgnoringCase?_eq {c : ClassInfo} (h : c.Holds name f) :
    c.methodIgnoringCase? name = some f := by
  obtain ⟨key, hf, hkey, honly⟩ := h
  have hentry : (key, f) ∈ c.methods.entries := NameMap.mem_of_lookup hf
  unfold methodIgnoringCase?
  cases hexact : c.method? name with
  | some g =>
    have hname : name ∈ c.methods.names :=
      List.mem_map_of_mem (f := Prod.fst) (NameMap.mem_of_lookup hexact)
    rw [honly name hname (Text.sameName_self name), hf] at hexact
    rw [Option.some_or, hexact]
  | none =>
    rw [Option.none_or]
    cases hfind : c.methods.entries.find? fun entry => Text.sameName entry.1 name with
    | none =>
      have hother := List.find?_eq_none.mp hfind _ hentry
      exact absurd hkey hother
    | some entry =>
      have hmem := List.mem_of_find?_eq_some hfind
      have hsame := List.find?_some hfind
      have hfst : entry.1 = key := honly entry.1 (List.mem_map_of_mem hmem) hsame
      rw [List.inj_on_of_nodup_map c.methods.nodup hmem hentry hfst, Option.map_some]

/-- The class that is named in a static call inside a class.  In an instance method `parent`
    names none: there the call is one of the same instance. -/
def staticTarget? (c : ClassInfo) (className : String) (e : Env) (written : String) :
    Option String :=
  match Text.withoutRoot written with
  | "self" | "static" => some className
  | "parent" => if c.isInstanceMethod (e.functionName.getD "") then none else c.parent
  | name => some name

end ClassInfo

/-- Inside the class `A`, which is looked up as `a`, a static call by names is one of the static
    method `f`. -/
structure SymbolTable.StaticCallee (t : SymbolTable) (e : Env) (m : Memory)
    (written name A : String) (a : ClassInfo) (f : MethodInfo) : Prop where
  inside : e.className = some A
  around : ((t.classInfo A).runFrom m).1 = .ok a
  target : ∃ B b, a.staticTarget? A e written = some B ∧
    ((t.classInfo B).runFrom ((t.classInfo A).runFrom m).2).1 = .ok b ∧ b.Holds name f
  isStatic : f.isStatic = true

/-! ### Complaints about visibility -/

namespace Complaint

/-- The message says that a static method is private or protected. -/
def SaysRestricted (c : Complaint) : Prop :=
  ∃ v : Visibility, v ≠ .anyone ∧
    ∃ rest : String, c.message = s!"Call to {v.text} static method {rest}"

/-- Both visibilities begin with the same letter. -/
theorem SaysRestricted.begins {c : Complaint} (h : c.SaysRestricted) : c.Begins "Call to p" := by
  obtain ⟨v, hv, rest, hmessage⟩ := h
  cases v with
  | anyone => exact absurd rfl hv
  | family => exact begins_of_parts ["rotected", " static method ", rest] hmessage
  | classOnly => exact begins_of_parts ["rivate", " static method ", rest] hmessage

theorem AboutArguments.not_saysRestricted {c : Complaint} {callee : String}
    (h : c.AboutArguments (.staticMethod callee)) : ¬ c.SaysRestricted := by
  intro hsays
  rcases h.begins with hstart | hstart
  · have hstart : c.Begins "Static method " := hstart.of_append
    exact hstart.not_begins (by decide) hsays.begins
  · exact hstart.not_begins (by decide) hsays.begins

theorem not_saysRestricted_staticMethodCase (className method written : String) :
    ¬ (staticMethodCase className method written).SaysRestricted := by
  intro hsays
  exact (begins_staticMethodCase className method written).not_begins (by decide) hsays.begins

theorem saysRestricted_restrictedStaticMethod {v : Visibility} (hv : v ≠ .anyone)
    (method className : String) :
    (restrictedStaticMethod v method className).SaysRestricted := by
  refine ⟨v, hv, method ++ "() of class " ++ className ++ ".", ?_⟩
  have htext : (restrictedStaticMethod v method className).message
      = "Call to " ++ v.text ++ " static method " ++ method ++ "() of class " ++ className
        ++ "." := rfl
  simp only [htext, String.append_assoc]
  rfl

end Complaint

/-- A method of another class is restricted if it is private, or if it is protected and the other
    class is no ancestor. -/
theorem ClassInfo.restricted?_isSome_iff :
    (a.restricted? A f).isSome ↔ f.declaringClass ≠ A ∧
      (f.visibility = .classOnly ∨ f.visibility = .family ∧ f.declaringClass ∉ a.ancestors) := by
  unfold restricted? Membership.isPrivate Membership.isPublic
  by_cases hown : f.declaringClass = A
  · simp [hown]
  · by_cases habove : f.declaringClass ∈ a.ancestors <;> cases f.visibility <;>
      simp [hown, habove]

theorem ClassInfo.saysRestricted_of_restricted? {c : Complaint}
    (h : a.restricted? A f = some c) : c.SaysRestricted := by
  have hsome : (a.restricted? A f).isSome := by rw [h]; rfl
  have hv : f.visibility ≠ .anyone := by
    rcases (restricted?_isSome_iff.mp hsome).2 with hv | ⟨hv, -⟩ <;> simp [hv]
  have hc : c = .restrictedStaticMethod f.visibility f.name f.declaringClass := by
    unfold restricted? at h
    grind
  rw [hc]
  exact Complaint.saysRestricted_restrictedStaticMethod hv _ _

namespace SymbolTable

/-! ### Calls -/

section

variable (settings : Settings) (span : Span) (args : List Arg)

/-- A call by names is one of the class that it names. -/
theorem runFrom_staticCallFindings (hinside : e.className = some A)
    (ha : (t.classInfo A).runFrom m = (.ok a, m'))
    (htarget : a.staticTarget? A e written = some B) :
    (staticCallFindings settings t e
        (.expr (.staticCall span (.literal written) (.literal name) args))).runFrom m
      = (do
          let complaints ← t.staticMethodComplaints e settings a A B name args
          return Finding.ofComplaints complaints).runFrom m' := by
  have hcalled : (t.staticCallComplaints e settings A written name args).runFrom m
      = (t.staticMethodComplaints e settings a A B name args).runFrom m' := by
    rw [staticCallComplaints, runFrom_bind_ok (runFrom_classInfo?_of_ok ha)]
    unfold ClassInfo.staticTarget? at htarget
    split at htarget
    case h_3 hparent =>
      obtain ⟨hclass, hq⟩ := Option.ite_none_left_eq_some.mp htarget
      simp_all
    all_goals simp_all
  rw [staticCallFindings, hinside]
  rw [runFrom_bind, hcalled, ← runFrom_bind]

variable (hb : (t.classInfo B).runFrom m = (.ok b, m')) (hheld : b.Holds name f)
  (hstatic : f.isStatic = true)
include hb hheld hstatic

theorem runFrom_staticMethodComplaints_of_some {c : Complaint}
    (h : a.restricted? A f = some c) :
    (t.staticMethodComplaints e settings a A B name args).runFrom m = (.ok [c], m') := by
  rw [staticMethodComplaints, runFrom_bind_ok (runFrom_classInfo?_of_ok hb)]
  simp only [hheld.methodIgnoringCase?_eq, hstatic, h]
  rfl

theorem not_saysRestricted_of_none (h : a.restricted? A f = none) {cs : List Complaint}
    (hcs : ((t.staticMethodComplaints e settings a A B name args).runFrom m).1 = .ok cs) :
    ∀ c ∈ cs, ¬ c.SaysRestricted := by
  rw [staticMethodComplaints, runFrom_bind_ok (runFrom_classInfo?_of_ok hb)] at hcs
  simp only [hheld.methodIgnoringCase?_eq, hstatic, h] at hcs
  have hspelling : ∀ c ∈ (if f.name = name then [] else [Complaint.staticMethodCase B f.name name]),
      ¬ c.SaysRestricted := by
    by_cases hname : f.name = name
    · simp [hname]
    · rw [if_neg hname, List.forall_mem_singleton]
      exact Complaint.not_saysRestricted_staticMethodCase B f.name name
  have hcomplaints := t.argComplaints_append_yields (e := e) settings f.toSignature args
    (fun c (hc : c.AboutArguments (.staticMethod (B ++ "::" ++ f.name ++ "()"))) =>
      hc.not_saysRestricted) hspelling
  exact hcomplaints m' cs hcs

end

/-- The rule for static calls says of the node that a static method is private or protected. -/
def ReportsRestricted (t : SymbolTable) (settings : Settings) (e : Env) (m : Memory)
    (node : Node) : Prop :=
  ∃ findings, ((staticCallFindings settings t e node).runFrom m).1 = .ok findings ∧
    ∃ finding ∈ findings, finding.complaint.SaysRestricted

theorem StaticCallee.reportsRestricted_iff (h : t.StaticCallee e m written name A a f)
    (settings : Settings) (span : Span) (args : List Arg) :
    t.ReportsRestricted settings e m
        (.expr (.staticCall span (.literal written) (.literal name) args)) ↔
      (a.restricted? A f).isSome := by
  obtain ⟨hinside, haround, ⟨B, b, htarget, hb, hheld⟩, hstatic⟩ := h
  rcases hA : (t.classInfo A).runFrom m with ⟨r, m₁⟩
  rw [hA] at haround hb
  rcases hB : (t.classInfo B).runFrom m₁ with ⟨r', m₂⟩
  rw [hB] at hb
  obtain rfl : r = .ok a := haround
  obtain rfl : r' = .ok b := hb
  unfold ReportsRestricted
  rw [runFrom_staticCallFindings settings span args hinside hA htarget, runFrom_bind]
  cases hr : a.restricted? A f with
  | some c =>
    rw [runFrom_staticMethodComplaints_of_some settings args hB hheld hstatic hr]
    have hsays := ClassInfo.saysRestricted_of_restricted? hr
    simpa [Finding.ofComplaints] using hsays
  | none =>
    rcases hrun : (t.staticMethodComplaints e settings a A B name args).runFrom m₁
      with ⟨cause | cs, m₃⟩
    · simp
    · have hother := not_saysRestricted_of_none settings args hB hheld hstatic hr (by rw [hrun])
      simpa [Finding.ofComplaints] using hother

/-! ### What is reported and what can be used -/

/-- The method is protected in another class, and below that one the class is by an interface
    only. -/
def SharesByInterface (A : String) (a : ClassInfo) (f : MethodInfo) : Prop :=
  f.visibility = .family ∧ f.declaringClass ≠ A ∧ f.declaringClass ∈ a.interfaces ∧
    f.declaringClass ∉ a.ancestors

/-- **Which static methods are reported as private or protected.**  Those that could not be used
    outside of a bound closure, and those that an interface of the class around has as protected.
    So a method that cannot be used is always reported; and outside of bound closures a method
    that is reported cannot be used, if no interface shares it. -/
theorem unusable_iff_restricted (hm : t.Arises m) (hm' : t.Arises m')
    (h : t.StaticCallee e m written name A a f) (settings : Settings) (span : Span)
    (args : List Arg) :
    (((t.canUse e f.toMembership).runFrom m').1 = .ok false ↔
      e.inBoundClosure = false ∧ ¬ SharesByInterface A a f ∧
        t.ReportsRestricted settings e m
          (.expr (.staticCall span (.literal written) (.literal name) args))) ∧
    (t.ReportsRestricted settings e m
        (.expr (.staticCall span (.literal written) (.literal name) args)) ↔
      SharesByInterface A a f ∨
        ((t.canUse { e with inBoundClosure := false } f.toMembership).runFrom m').1
          = .ok false) := by
  have ha : t.Assembles A a := assembles_of_ok hm.atRest.faithful h.around
  obtain ⟨a', hr, ha'⟩ := ha.found hm'.atRest
  have hsub : a'.isSubclassOf f.declaringClass = true ↔
      f.declaringClass ∈ a.ancestors ∨ f.declaringClass ∈ a.interfaces := by
    rw [ha'.isSubclassOf_eq ha]
    simp [ClassInfo.isSubclassOf]
  have hinside : ({ e with inBoundClosure := false } : Env).className = some A := h.inside
  have hused := canUse_eq_false_iff f.toMembership h.inside hr
  have hopen := canUse_eq_false_iff f.toMembership hinside hr
  rw [h.reportsRestricted_iff, ClassInfo.restricted?_isSome_iff, hused, hopen,
    ← Bool.not_eq_true (a'.isSubclassOf _), hsub]
  unfold SharesByInterface
  cases f.visibility with
  | anyone => simp
  | classOnly => simp
  | family =>
    by_cases hchain : f.declaringClass ∈ a.ancestors
    · simp [hchain]
    · by_cases hlisted : f.declaringClass ∈ a.interfaces
      · simp [hchain, hlisted]
      · simp [hchain, hlisted]

end SymbolTable

/-! ### A register -/

namespace Register

/-- A class with a register that it keeps to itself, and one with a list that is shared below an
    interface. -/
def program : Program :=
  [({ name := "Listed", kind := .interface,
      methods := [{ name := "list", visibility := .family, isStatic := true }] } : ClassDecl),
    { name := "Register",
      methods := [{ name := "erase", visibility := .classOnly, isStatic := true }] },
    { name := "Vet", interfaces := ["Listed"] }].foldl Program.addClass {}

def table : SymbolTable := { source := program.source }

def vet : Env := (Env.ofFile "vet.php" true).enterClass "Vet"

def call (className method : String) : Node :=
  .expr (.staticCall {} (.literal className) (.literal method) [])

/-- A vet cannot erase the register, and is told so. -/
theorem erase_kept :
    ∃ a f, table.Arises {} ∧ table.StaticCallee vet {} "Register" "erase" "Vet" a f ∧
      ((staticCallFindings {} table vet (call "Register" "erase")).runFrom {}).1
        = .ok [{ complaint := .restrictedStaticMethod .classOnly "erase" "Register" }] ∧
      ((table.canUse vet f.toMembership).runFrom {}).1 = .ok false := by
  have hcallee : table.StaticCallee vet {} "Register" "erase" "Vet" _ _ :=
    ⟨rfl, rfl, ⟨"Register", _, rfl, rfl, "erase", rfl, by decide, by decide⟩, rfl⟩
  have hfindings : ((staticCallFindings {} table vet (call "Register" "erase")).runFrom {}).1
      = .ok [{ complaint := .restrictedStaticMethod .classOnly "erase" "Register" }] := rfl
  have hexact := SymbolTable.unusable_iff_restricted .start .start hcallee {} {} []
  refine ⟨_, _, .start, hcallee, hfindings, hexact.1.mpr ⟨rfl, ?_, ?_⟩⟩
  · rintro ⟨hprivate, -⟩
    cases hprivate
  · refine ⟨_, hfindings, _, List.mem_singleton_self _, ?_⟩
    exact Complaint.saysRestricted_restrictedStaticMethod (by decide) _ _

/-- In a closure that is bound to another class a vet is told the same, though there the register
    can be erased; and that the list is protected, though a vet is listed. -/
theorem erase_and_list_reported :
    (∃ a f, table.StaticCallee vet.enterBoundClosure {} "Register" "erase" "Vet" a f ∧
      table.ReportsRestricted {} vet.enterBoundClosure {} (call "Register" "erase") ∧
      ((table.canUse vet.enterBoundClosure f.toMembership).runFrom {}).1 = .ok true) ∧
    ∃ a f, table.StaticCallee vet {} "Listed" "list" "Vet" a f ∧
      table.ReportsRestricted {} vet {} (call "Listed" "list") ∧
      ((table.canUse vet f.toMembership).runFrom {}).1 = .ok true := by
  have herase : table.StaticCallee vet.enterBoundClosure {} "Register" "erase" "Vet" _ _ :=
    ⟨rfl, rfl, ⟨"Register", _, rfl, rfl, "erase", rfl, by decide, by decide⟩, rfl⟩
  have hlist : table.StaticCallee vet {} "Listed" "list" "Vet" _ _ :=
    ⟨rfl, rfl, ⟨"Listed", _, rfl, rfl, "list", rfl, by decide, by decide⟩, rfl⟩
  constructor
  · refine ⟨_, _, herase, ?_, rfl⟩
    rw [call, herase.reportsRestricted_iff]
    rfl
  · refine ⟨_, _, hlist, ?_, rfl⟩
    rw [call, hlist.reportsRestricted_iff]
    rfl

end Register

end PhpCheck
