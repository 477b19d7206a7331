/-
  PhpCheck/Proofs/Rules/SurplusArguments.lean
  ===========================================
  **Surplus arguments** — what is said about the types of arguments behind the
  last parameter.

  A callee takes more arguments than it has parameters for two reasons: a
  parameter of it collects the rest, or its body reads the arguments by itself.
  The check knows only that the callee is variadic, and in both cases compares
  each surplus argument with the last parameter (`surplus_compared_with_last`).
  For a parameter that collects the rest this is what it should do.  The
  arguments that a body reads by itself belong to no parameter, and still get
  complaints that name the last one (`Journal.entries_compared`); where the last
  parameter collects the rest or nothing makes the callee variadic but its
  parameters, there are none of these.
-/
import PhpCheck.Proofs.Rules.ArgumentCheck

namespace PhpCheck

open Analysis

namespace Signature

variable {s : Signature} {i : Nat} {p : ParamInfo}

/-- Behind the parameters there is the last one, or none. -/
theorem paramAt?_of_le (h : s.params.length ≤ i) :
    s.paramAt? i = if s.isVariadic then s.params.getLast? else none := by
  rw [paramAt?, List.getElem?_eq_none_iff.mpr h, Option.none_or]

theorem paramAt?_surplus_iff (h : s.params.length ≤ i) :
    s.paramAt? i = some p ↔ s.isVariadic = true ∧ s.params.getLast? = some p := by
  rw [paramAt?_of_le h]
  cases s.isVariadic <;> simp

/-- A variadic callee takes all arguments that are behind its parameters. -/
theorem countComplaint?_surplus {args : List Arg} (callee : Callee)
    (hvariadic : s.isVariadic = true) (h : s.params.length ≤ args.length) :
    s.countComplaint? args callee = none := by
  have hleast : (s.params.filter fun p => !p.optional).length ≤ args.length :=
    Nat.le_trans s.leastArgs_le h
  rw [countComplaint?_eq, if_neg]
  rintro ⟨-, hfew | ⟨hfixed, -⟩⟩
  · omega
  · rw [hvariadic] at hfixed
    cases hfixed

/-- If the body does not read the arguments by itself and no parameter but the last collects the
    rest, then the last one does. -/
theorem variadic_of_getLast? (hvariadic : s.isVariadic = true) (hbody : s.variadic = false)
    (hinner : ∀ q ∈ s.params.dropLast, q.variadic = false) (hlast : s.params.getLast? = some p) :
    p.variadic = true := by
  rw [isVariadic, hbody, Bool.false_or, List.any_eq_true] at hvariadic
  obtain ⟨q, hq, hrest⟩ := hvariadic
  rw [← List.dropLast_append_getLast? p hlast] at hq
  rcases List.mem_append.mp hq with hq | hq
  · rw [hinner q hq] at hrest
    cases hrest
  · cases List.mem_singleton.mp hq
    exact hrest

end Signature

namespace SymbolTable

variable {t : SymbolTable} {m : Memory}

/-- **Surplus arguments are compared with the last parameter.**  If the check of arguments gives an
    answer, its complaints about arguments behind the parameters are those about the arguments
    that do not fit the last parameter of a callee that is variadic, for either reason.  So if the
    body of the callee does not read the arguments by itself and only its last parameter can
    collect the rest, there is such a complaint only if that parameter does. -/
theorem surplus_compared_with_last (hm : t.Arises m) (e : Env) (settings : Settings)
    (s : Signature) (args : List Arg) (callee : Callee) {cs : List Complaint}
    (hcs : ((t.argComplaints e settings s args callee).runFrom m).1 = .ok cs) :
    let m' := ((t.argComplaints e settings s args callee).runFrom m).2
    (∀ c, c ∈ cs ∧ s.params.length < c.position ↔
      settings.argumentTypes = true ∧ s.isVariadic = true ∧
        ∃ i p given, s.params.length ≤ i ∧ s.params.getLast? = some p ∧
          t.Misfit m' e args i p given ∧ c = .argumentType callee (i + 1) p.name p.type given) ∧
    (s.variadic = false → (∀ p ∈ s.params.dropLast, p.variadic = false) →
      ∀ c ∈ cs, s.params.length < c.position →
        ∃ p, s.params.getLast? = some p ∧ p.variadic = true) := by
  intro m'
  have hexact : ∀ c, c ∈ cs ∧ s.params.length < c.position ↔
      settings.argumentTypes = true ∧ s.isVariadic = true ∧
        ∃ i p given, s.params.length ≤ i ∧ s.params.getLast? = some p ∧
          t.Misfit m' e args i p given ∧
          c = .argumentType callee (i + 1) p.name p.type given := by
    intro c
    constructor
    · rintro ⟨hc, hsurplus⟩
      rcases argComplaints_of_ok hm.atRest hcs with
        ⟨d, hcount, rfl⟩ | ⟨-, ⟨-, rfl⟩ | ⟨htypes, hexact⟩⟩
      · rw [Signature.countComplaint?_eq] at hcount
        obtain ⟨-, hd⟩ := Option.ite_none_right_eq_some.mp hcount
        cases List.mem_singleton.mp hc
        cases hd
        exact absurd hsurplus (Nat.not_lt_zero _)
      · cases hc
      · obtain ⟨i, p, given, hp, hmisfit, rfl⟩ := hexact.sound c hc
        have hle : s.params.length ≤ i := Nat.le_of_lt_succ hsurplus
        obtain ⟨hvariadic, hlast⟩ := (Signature.paramAt?_surplus_iff hle).mp hp
        exact ⟨htypes, hvariadic, i, p, given, hle, hlast, hmisfit, rfl⟩
    · rintro ⟨htypes, hvariadic, i, p, given, hle, hlast, hmisfit, rfl⟩
      have hlt : i < args.length := by
        obtain ⟨arg, harg, -⟩ := hmisfit.inferred
        exact (List.getElem?_eq_some_iff.mp harg).1
      have hfits := Signature.countComplaint?_surplus callee hvariadic
        (Nat.le_trans hle (Nat.le_of_lt hlt))
      refine ⟨?_, Nat.lt_succ_of_le hle⟩
      rcases argComplaints_of_ok hm.atRest hcs with
        ⟨d, hcount, -⟩ | ⟨-, ⟨hoff, -⟩ | ⟨-, hexact⟩⟩
      · rw [hfits] at hcount
        cases hcount
      · rw [htypes] at hoff
        cases hoff
      · exact hexact.complete ((Signature.paramAt?_surplus_iff hle).mpr ⟨hvariadic, hlast⟩) hmisfit
  refine ⟨hexact, ?_⟩
  intro hbody hinner c hc hsurplus
  obtain ⟨-, hvariadic, i, p, given, -, hlast, -, -⟩ := (hexact c).mp ⟨hc, hsurplus⟩
  exact ⟨p, hlast, Signature.variadic_of_getLast? hvariadic hbody hinner hlast⟩

end SymbolTable

/-! ### A journal -/

namespace Journal

/-- The labels of an entry are collected in a parameter. -/
def tag : MethodDecl where
  name := "tag"
  params := [{ name := "entry", type := .of .integer false },
    { name := "labels", type := .of .string false, variadic := true }]

/-- What is to be logged at a level is read by the body. -/
def log : MethodDecl where
  name := "log"
  params := [{ name := "level", type := .of .integer false }]
  variadic := true

def journal : ClassDecl where
  name := "Journal"
  methods := [tag, log]

def table : SymbolTable := { source := (Program.addClass {} journal).source }

def page : Env := .ofFile "journal.php" false

def args (values : List Expr) : List Arg := values.map fun value => { value }

def writing (method : String) (values : List Expr) : Node :=
  .expr (.methodCall {} (.new {} (.literal "Journal") []) (.literal method) (args values))

/-- A list is no label, and the parameter that the complaint names collects the labels. -/
theorem labels_compared :
    table.Arises {} ∧
      ((table.argComplaints page { argumentTypes := true } (tag.info journal).toSignature
          (args [.int {} 1, .string {} "rain", .array {} []]) (.method "tag()")).runFrom {}).1
        = .ok [.argumentType (.method "tag()") 3 "labels" (.of .string false)
            (.of .array false)] ∧
      (tag.info journal).isVariadic = true ∧
      ∃ p, (tag.info journal).params.getLast? = some p ∧ p.variadic = true := by
  have hrun : ((table.argComplaints page { argumentTypes := true } (tag.info journal).toSignature
      (args [.int {} 1, .string {} "rain", .array {} []]) (.method "tag()")).runFrom {}).1
        = .ok [.argumentType (.method "tag()") 3 "labels" (.of .string false)
            (.of .array false)] := rfl
  obtain ⟨hcompared, honly⟩ :=
    SymbolTable.surplus_compared_with_last .start page { argumentTypes := true } _ _ _ hrun
  obtain ⟨-, hvariadic, -⟩ := (hcompared _).mp ⟨List.mem_cons_self, by decide⟩
  refine ⟨.start, hrun, hvariadic, ?_⟩
  exact honly rfl (by decide) _ List.mem_cons_self (by decide)

/-- What is logged at a level is compared with the level, though no parameter collects the rest;
    and so it is in the report on a call. -/
theorem entries_compared :
    (log.info journal).params.length = 1 ∧
      (∀ p ∈ (log.info journal).params, p.variadic = false) ∧
      ((table.argComplaints page { argumentTypes := true } (log.info journal).toSignature
          (args [.int {} 1, .array {} []]) (.method "Journal::log()")).runFrom {}).1
        = .ok [.argumentType (.method "Journal::log()") 2 "level" (.of .integer false)
            (.of .array false)] ∧
      ((methodCallFindings { argumentTypes := true } table page
          (writing "log" [.int {} 1, .array {} []])).runFrom {}).1
        = .ok [⟨.argumentType (.method "Journal::log()") 2 "level" (.of .integer false)
            (.of .array false), none⟩] :=
  ⟨rfl, by decide, rfl, rfl⟩

end Journal

end PhpCheck
