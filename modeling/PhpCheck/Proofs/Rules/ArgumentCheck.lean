/-
  PhpCheck/Proofs/Rules/ArgumentCheck.lean
  ========================================
  **The check of arguments is exact** — which complaints the arguments of a call
  get.

  If the number of arguments does not fit, there is one complaint about it and no
  other; an unpacked argument fits any number.  Otherwise there is a complaint
  about each argument before the first unpacked one that does not fit its
  parameter (`SymbolTable.Misfit`), in the order of the arguments.  The loop over the
  arguments stops early in two places, and both times nothing is left to find:
  `SymbolTable.Exact` says what has been found of the arguments from a position on,
  and each turn of the loop keeps it.

  What the arguments give is said by the memory after the check: whatever was
  looked up in between is found there as it was found then.
-/
import PhpCheck.Proofs.Analysis.Order

namespace PhpCheck

open Analysis

/-! ### Positions -/

/-- The position of the argument that the complaint is about. -/
def Complaint.position : Complaint → Nat
  | .argumentType _ position _ _ _ => position
  | _ => 0

namespace Signature

theorem paramAt?_of_lt (s : Signature) {i : Nat} (h : i < s.params.length) :
    s.paramAt? i = some s.params[i] := by
  rw [paramAt?, List.getElem?_eq_getElem h, Option.some_or]

/-- Behind an argument without a parameter there are no parameters. -/
theorem paramAt?_eq_none {s : Signature} {k : Nat} (h : s.paramAt? k = none) (i : Nat) :
    s.paramAt? (i + k) = none := by
  obtain ⟨hnone, hlast⟩ := Option.or_eq_none_iff.mp h
  have hle : s.params.length ≤ i + k := by
    have := List.getElem?_eq_none_iff.mp hnone
    omega
  rw [paramAt?, List.getElem?_eq_none_iff.mpr hle, hlast, Option.or_none]

theorem fitsCount_iff (s : Signature) (count : Nat) :
    s.fitsCount count = true ↔
      ¬ (count < s.leastArgs ∨ s.isVariadic = false ∧ s.params.length < count) := by
  unfold fitsCount mostArgs
  cases s.isVariadic <;> simp

/-- There is a complaint about the number of arguments if none is unpacked and the number is not
    between the two bounds. -/
theorem countComplaint?_eq (s : Signature) (args : List Arg) (callee : Callee) :
    s.countComplaint? args callee =
      if (∀ arg ∈ args, arg.unpacked = false) ∧
          (args.length < (s.params.filter fun p => !p.optional).length ∨
            s.isVariadic = false ∧ s.params.length < args.length) then
        some (.argumentCount callee args.length s.leastArgs s.mostArgs)
      else none := by
  by_cases hany : args.any (·.unpacked) = true
  · obtain ⟨arg, harg, hunpacked⟩ := List.any_eq_true.mp hany
    rw [countComplaint?_unpacked callee hany, if_neg]
    rintro ⟨hpacked, -⟩
    rw [hpacked arg harg] at hunpacked
    cases hunpacked
  · have hpacked : ∀ arg ∈ args, arg.unpacked = false := by simpa using hany
    have hcount : s.countedArgs args = args.length := if_neg hany
    have hfits := s.fitsCount_iff args.length
    rw [countComplaint?, hcount, ← leastArgs]
    by_cases houtside : args.length < s.leastArgs ∨
        s.isVariadic = false ∧ s.params.length < args.length
    · rw [if_neg fun h => hfits.mp h houtside, if_pos ⟨hpacked, houtside⟩]
    · rw [if_pos (hfits.mpr houtside), if_neg fun h => houtside h.2]

end Signature

namespace SymbolTable

variable {t : SymbolTable} {e : Env} {m m' : Memory} {s : Signature} {callee : Callee}

/-! ### Single arguments -/

/-- In this memory the expression has a type, and the class that the type names can be looked
    up. -/
def Resolves (t : SymbolTable) (m : Memory) (e : Env) (x : Expr) : Prop :=
  ∃ type, ((x.infer t e).runFrom m).1 = .ok type ∧
    ∀ className ∈ type.className?, ∃ found, ((t.classInfo? className).runFrom m).1 = .ok found

/-- A value of one type can be passed where the other is expected. -/
inductive Accepts (t : SymbolTable) (m : Memory) (e : Env) (expected given : PhpType) : Prop where
  | byType : expected.accepts given = true → Accepts t m e expected given
  | byClass {above below : String} {c : ClassInfo} : expected.className? = some above →
      given.className? = some below → ((t.classInfo? below).runFrom m).1 = .ok (some c) →
      c.isSubclassOf above = true → Accepts t m e expected given
  | byCoercion : e.strict = false → expected.isScalar = true → given.isScalar = true →
      Accepts t m e expected given

theorem className?_of_isScalar {type : PhpType} (h : type.isScalar = true) :
    type.className? = none := by
  obtain ⟨kind, nullable, _⟩ := type
  cases kind <;> first | rfl | cases h

/-- Where two classes meet, only the hierarchy can make one acceptable for the other. -/
theorem accepts_iff_of_classes {expected given : PhpType} {above below : String}
    (h : expected.accepts given = false) (ha : expected.className? = some above)
    (hb : given.className? = some below) :
    t.Accepts m e expected given ↔
      ∃ c, ((t.classInfo? below).runFrom m).1 = .ok (some c) ∧ c.isSubclassOf above = true := by
  constructor
  · intro haccepts
    cases haccepts with
    | byType htype =>
      rw [h] at htype
      cases htype
    | byClass ha' hb' hfound hbelow =>
      cases ha.symm.trans ha'
      cases hb.symm.trans hb'
      exact ⟨_, hfound, hbelow⟩
    | byCoercion _ hscalar _ =>
      rw [className?_of_isScalar hscalar] at ha
      cases ha
  · rintro ⟨c, hfound, hbelow⟩
    exact .byClass ha hb hfound hbelow

theorem accepts_iff_of_no_classes {expected given : PhpType} (h : expected.accepts given = false)
    (hnone : expected.className? = none ∨ given.className? = none) :
    t.Accepts m e expected given ↔
      e.strict = false ∧ expected.isScalar = true ∧ given.isScalar = true := by
  constructor
  · intro haccepts
    cases haccepts with
    | byType htype =>
      rw [h] at htype
      cases htype
    | byClass ha hb _ _ => simp [ha, hb] at hnone
    | byCoercion hstrict hexpected hgiven => exact ⟨hstrict, hexpected, hgiven⟩
  · rintro ⟨hstrict, hexpected, hgiven⟩
    exact .byCoercion hstrict hexpected hgiven

/-- What is told about whether a value can be passed, is so. -/
theorem accepts_of_ok {expected given : PhpType} {fits : Bool}
    (h : ((t.acceptsArg e expected given).runFrom m).1 = .ok fits) :
    fits = true ↔ t.Accepts m e expected given := by
  by_cases htype : expected.accepts given = true
  · rw [acceptsArg, if_pos htype] at h
    cases h
    exact iff_of_true rfl (.byType htype)
  · have htype' : expected.accepts given = false := by simpa using htype
    unfold acceptsArg at h
    rw [if_neg htype] at h
    split at h
    · rename_i above below ha hb
      rw [accepts_iff_of_classes htype' ha hb]
      rcases hr : (t.classInfo? below).runFrom m with ⟨cause | found, n⟩
      · rw [runFrom_bind_error hr] at h
        cases h
      · rw [runFrom_bind_ok hr] at h
        cases h
        cases found <;> simp
    · rename_i hclasses
      cases h
      rw [accepts_iff_of_no_classes htype']
      · simp [and_assoc]
      · cases ha : expected.className? with
        | none => exact .inl rfl
        | some above =>
          cases hb : given.className? with
          | none => exact .inr rfl
          | some below => exact (hclasses above below ha hb).elim

/-- Whether a value can be passed is told, if its class can be looked up. -/
theorem acceptsArg_succeeds (e : Env) (expected : PhpType) {given : PhpType}
    (h : ∀ className ∈ given.className?,
      ∃ found, ((t.classInfo? className).runFrom m).1 = .ok found) :
    ∃ fits, ((t.acceptsArg e expected given).runFrom m).1 = .ok fits := by
  unfold acceptsArg
  split
  · exact ⟨_, rfl⟩
  · split
    · rename_i below _ hb
      obtain ⟨found, hfound⟩ := h below hb
      have hrun : (t.classInfo? below).runFrom m
          = (.ok found, ((t.classInfo? below).runFrom m).2) := Prod.ext hfound rfl
      rw [runFrom_bind_ok hrun]
      exact ⟨_, rfl⟩
    · exact ⟨_, rfl⟩

/-- The argument at an index is compared with a parameter, and does not fit. -/
structure Misfit (t : SymbolTable) (m : Memory) (e : Env) (args : List Arg) (i : Nat)
    (p : ParamInfo) (given : PhpType) : Prop where
  packed : ∀ arg ∈ args.take (i + 1), arg.unpacked = false
  inferred : ∃ arg, args[i]? = some arg ∧ ((arg.value.infer t e).runFrom m).1 = .ok given
  refused : ¬ t.Accepts m e p.type given

namespace Misfit

variable {arg : Arg} {rest : List Arg} {i : Nat} {p : ParamInfo} {given : PhpType}

theorem head_iff :
    t.Misfit m e (arg :: rest) 0 p given ↔
      arg.unpacked = false ∧ ((arg.value.infer t e).runFrom m).1 = .ok given ∧
        ¬ t.Accepts m e p.type given := by
  constructor
  · rintro ⟨hpacked, ⟨_, ⟨⟩, hinfer⟩, hrefused⟩
    exact ⟨hpacked arg (by simp), hinfer, hrefused⟩
  · rintro ⟨hpacked, hinfer, hrefused⟩
    exact ⟨by simpa using hpacked, ⟨arg, rfl, hinfer⟩, hrefused⟩

theorem tail_iff :
    t.Misfit m e (arg :: rest) (i + 1) p given ↔
      arg.unpacked = false ∧ t.Misfit m e rest i p given := by
  constructor
  · rintro ⟨hpacked, hinferred, hrefused⟩
    rw [List.take_succ_cons, List.forall_mem_cons] at hpacked
    exact ⟨hpacked.1, hpacked.2, hinferred, hrefused⟩
  · rintro ⟨hunpacked, hpacked, hinferred, hrefused⟩
    refine ⟨?_, hinferred, hrefused⟩
    rw [List.take_succ_cons, List.forall_mem_cons]
    exact ⟨hunpacked, hpacked⟩

end Misfit

/-! ### The loop -/

/-- The complaints are those about the types of some arguments, the first of which is at a
    position of the whole call. -/
structure Exact (t : SymbolTable) (m : Memory) (e : Env) (s : Signature) (callee : Callee)
    (k : Nat) (args : List Arg) (cs : List Complaint) : Prop where
  increasing : cs.Pairwise fun a b => a.position < b.position
  sound : ∀ c ∈ cs, ∃ i p given, s.paramAt? (i + k) = some p ∧ t.Misfit m e args i p given ∧
    c = .argumentType callee (i + k + 1) p.name p.type given
  complete : ∀ {i : Nat} {p : ParamInfo} {given : PhpType}, s.paramAt? (i + k) = some p →
    t.Misfit m e args i p given →
    .argumentType callee (i + k + 1) p.name p.type given ∈ cs

namespace Exact

variable {k : Nat} {arg : Arg} {rest : List Arg} {cs : List Complaint} {p : ParamInfo}
  {given : PhpType}

/-- Nothing is left to compare. -/
theorem nothing {args : List Arg}
    (h : ∀ {i : Nat} {p : ParamInfo} {given : PhpType}, s.paramAt? (i + k) = some p →
      ¬ t.Misfit m e args i p given) : t.Exact m e s callee k args [] where
  increasing := .nil
  sound := by simp
  complete hp hmisfit := absurd hmisfit (h hp)

theorem nil : t.Exact m e s callee k [] [] :=
  nothing fun _ hmisfit => by simpa using hmisfit.inferred

theorem unpacked (h : arg.unpacked = true) : t.Exact m e s callee k (arg :: rest) [] := by
  refine nothing fun _ hmisfit => ?_
  have hpacked := hmisfit.packed arg (by simp)
  rw [h] at hpacked
  cases hpacked

theorem beyond {args : List Arg} (h : s.paramAt? k = none) :
    t.Exact m e s callee k args [] := by
  refine nothing fun {i _ _} hp _ => ?_
  rw [Signature.paramAt?_eq_none h i] at hp
  cases hp

theorem sound_tail (h : t.Exact m e s callee (k + 1) rest cs) (hpacked : arg.unpacked = false)
    {c : Complaint} (hc : c ∈ cs) :
    ∃ i p given, s.paramAt? (i + k) = some p ∧ t.Misfit m e (arg :: rest) i p given ∧
      c = .argumentType callee (i + k + 1) p.name p.type given := by
  obtain ⟨i, p, given, hp, hmisfit, rfl⟩ := h.sound c hc
  have hshift : i + (k + 1) = i + 1 + k := by omega
  rw [hshift] at hp ⊢
  exact ⟨i + 1, p, given, hp, Misfit.tail_iff.mpr ⟨hpacked, hmisfit⟩, rfl⟩

theorem complete_tail (h : t.Exact m e s callee (k + 1) rest cs) {i : Nat}
    (hp : s.paramAt? (i + 1 + k) = some p) (hmisfit : t.Misfit m e (arg :: rest) (i + 1) p given) :
    .argumentType callee (i + 1 + k + 1) p.name p.type given ∈ cs := by
  have hshift : i + 1 + k = i + (k + 1) := by omega
  rw [hshift] at hp ⊢
  exact h.complete hp (Misfit.tail_iff.mp hmisfit).2

/-- An argument that fits adds nothing. -/
theorem fitting (h : t.Exact m e s callee (k + 1) rest cs) (hpacked : arg.unpacked = false)
    (hp : s.paramAt? k = some p) (hinfer : ((arg.value.infer t e).runFrom m).1 = .ok given)
    (haccepts : t.Accepts m e p.type given) : t.Exact m e s callee k (arg :: rest) cs where
  increasing := h.increasing
  sound _ hc := h.sound_tail hpacked hc
  complete := by
    intro i q given' hq hmisfit
    cases i with
    | zero =>
      obtain ⟨-, hinfer', hrefused⟩ := Misfit.head_iff.mp hmisfit
      rw [Nat.zero_add, hp] at hq
      cases hq
      rw [hinfer] at hinfer'
      cases hinfer'
      exact absurd haccepts hrefused
    | succ i => exact h.complete_tail hq hmisfit

/-- An argument that does not fit comes before all that is found behind it. -/
theorem misfitting (h : t.Exact m e s callee (k + 1) rest cs) (hpacked : arg.unpacked = false)
    (hp : s.paramAt? k = some p) (hinfer : ((arg.value.infer t e).runFrom m).1 = .ok given)
    (hrefused : ¬ t.Accepts m e p.type given) :
    t.Exact m e s callee k (arg :: rest)
      (.argumentType callee (k + 1) p.name p.type given :: cs) where
  increasing := by
    refine List.pairwise_cons.mpr ⟨fun c hc => ?_, h.increasing⟩
    obtain ⟨i, q, given', -, -, rfl⟩ := h.sound c hc
    show k + 1 < i + (k + 1) + 1
    omega
  sound := by
    intro c hc
    rcases List.mem_cons.mp hc with rfl | hc
    · refine ⟨0, p, given, ?_, Misfit.head_iff.mpr ⟨hpacked, hinfer, hrefused⟩, ?_⟩
      · rw [Nat.zero_add, hp]
      · rw [Nat.zero_add]
    · exact h.sound_tail hpacked hc
  complete := by
    intro i q given' hq hmisfit
    cases i with
    | zero =>
      obtain ⟨-, hinfer', -⟩ := Misfit.head_iff.mp hmisfit
      rw [Nat.zero_add] at hq ⊢
      cases hp.symm.trans hq
      cases hinfer.symm.trans hinfer'
      exact List.mem_cons_self
    | succ i => exact List.mem_cons_of_mem _ (h.complete_tail hq hmisfit)

theorem not_argumentCount {args : List Arg} (h : t.Exact m e s callee k args cs)
    (given least : Nat) (most : Option Nat) : .argumentCount callee given least most ∉ cs := by
  intro hmem
  obtain ⟨i, p, type, -, -, heq⟩ := h.sound _ hmem
  cases heq

/-- What is said about an argument that has a parameter of its own. -/
theorem mem_iff {args : List Arg} (h : t.Exact m e s callee 0 args cs) {i : Nat}
    (hi : i < s.params.length) (param : String) (expected given : PhpType) :
    .argumentType callee (i + 1) param expected given ∈ cs ↔
      param = s.params[i].name ∧ expected = s.params[i].type ∧
        t.Misfit m e args i s.params[i] given := by
  have hp := s.paramAt?_of_lt hi
  constructor
  · intro hmem
    obtain ⟨j, p, type, hq, hmisfit, heq⟩ := h.sound _ hmem
    cases heq
    cases hp.symm.trans hq
    exact ⟨rfl, rfl, hmisfit⟩
  · rintro ⟨rfl, rfl, hmisfit⟩
    exact h.complete hp hmisfit

end Exact

/-- What a turn of the loop does after its argument was compared. -/
def continueWith (t : SymbolTable) (e : Env) (s : Signature) (callee : Callee) (k : Nat)
    (rest : List Arg) (p : ParamInfo) (given : PhpType) (fits : Bool) :
    Analysis (List Complaint) := do
  let others ← t.typeComplaints e s callee (k + 1) rest
  return if fits then others else .argumentType callee (k + 1) p.name p.type given :: others

section Turn

variable {k : Nat} {arg : Arg} {rest : List Arg} {p : ParamInfo}

theorem continueWith_repeatable (t : SymbolTable) (e : Env) (s : Signature) (callee : Callee)
    (k : Nat) (rest : List Arg) (p : ParamInfo) (given : PhpType) (fits : Bool) :
    Repeatable t (t.continueWith e s callee k rest p given fits) :=
  (t.typeComplaints_repeatable e s callee (k + 1) rest).bind fun _ => .pure _

theorem compare_repeatable (t : SymbolTable) (e : Env) (s : Signature) (callee : Callee)
    (k : Nat) (rest : List Arg) (p : ParamInfo) (given : PhpType) :
    Repeatable t (t.acceptsArg e p.type given >>= t.continueWith e s callee k rest p given) :=
  (t.acceptsArg_repeatable e p.type given).bind
    (t.continueWith_repeatable e s callee k rest p given)

theorem typeComplaints_cons (hunpacked : ¬ arg.unpacked = true) (hp : s.paramAt? k = some p) :
    t.typeComplaints e s callee k (arg :: rest) = arg.value.infer t e >>= fun given =>
      t.acceptsArg e p.type given >>= t.continueWith e s callee k rest p given := by
  rw [typeComplaints, if_neg hunpacked, hp]
  rfl

/-- A turn of the loop: what its two look-ups give afterwards they gave when they were made, and
    then the loop goes on. -/
theorem runFrom_typeComplaints_cons {given : PhpType} {fits : Bool}
    (hunpacked : ¬ arg.unpacked = true)
    (hp : s.paramAt? k = some p) (hm : AtRest t m) (hm' : AtRest t m')
    (hl : Later t ((t.typeComplaints e s callee k (arg :: rest)).runFrom m).2 m')
    (hgiven : ((arg.value.infer t e).runFrom m').1 = .ok given)
    (hfits : ((t.acceptsArg e p.type given).runFrom m').1 = .ok fits) :
    ∃ n, AtRest t n ∧ (t.typeComplaints e s callee k (arg :: rest)).runFrom m
      = (t.continueWith e s callee k rest p given fits).runFrom n := by
  rw [typeComplaints_cons hunpacked hp] at hl ⊢
  obtain ⟨m₁, hm₁, hfirst⟩ := (arg.value.infer_repeatable t e).bind_of_later_ok
    (t.compare_repeatable e s callee k rest p) hm hm' hl hgiven
  rw [hfirst] at hl ⊢
  exact (t.acceptsArg_repeatable e p.type given).bind_of_later_ok
    (t.continueWith_repeatable e s callee k rest p given) hm₁ hm' hl hfits

/-- If the loop succeeds, so do the two look-ups of its first turn, then and afterwards. -/
theorem exists_turn_of_ok {cs : List Complaint} (hunpacked : ¬ arg.unpacked = true)
    (hp : s.paramAt? k = some p) (hm : AtRest t m) (hm' : AtRest t m')
    (hl : Later t ((t.typeComplaints e s callee k (arg :: rest)).runFrom m).2 m')
    (hcs : ((t.typeComplaints e s callee k (arg :: rest)).runFrom m).1 = .ok cs) :
    ∃ given fits n, ((arg.value.infer t e).runFrom m').1 = .ok given ∧
      ((t.acceptsArg e p.type given).runFrom m').1 = .ok fits ∧ AtRest t n ∧
      (t.typeComplaints e s callee k (arg :: rest)).runFrom m
        = (t.continueWith e s callee k rest p given fits).runFrom n := by
  rw [typeComplaints_cons hunpacked hp] at hl hcs ⊢
  obtain ⟨given, m₁, hgiven, hm₁, hfirst⟩ := (arg.value.infer_repeatable t e).bind_of_ok
    (t.compare_repeatable e s callee k rest p) hm hm' hl hcs
  rw [hfirst] at hl hcs ⊢
  obtain ⟨fits, n, hfits, hn, hsecond⟩ := (t.acceptsArg_repeatable e p.type given).bind_of_ok
    (t.continueWith_repeatable e s callee k rest p given) hm₁ hm' hl hcs
  exact ⟨given, fits, n, hgiven, hfits, hn, hsecond⟩

end Turn

/-- The loop succeeds, if all types and classes can be looked up afterwards. -/
theorem typeComplaints_succeeds (k : Nat) {args : List Arg} (hm : AtRest t m) (hm' : AtRest t m')
    (hl : Later t ((t.typeComplaints e s callee k args).runFrom m).2 m')
    (hresolves : ∀ arg ∈ args, t.Resolves m' e arg.value) :
    ∃ cs, ((t.typeComplaints e s callee k args).runFrom m).1 = .ok cs := by
  induction args generalizing k m with
  | nil => exact ⟨[], rfl⟩
  | cons arg rest ih =>
    by_cases hunpacked : arg.unpacked = true
    · rw [typeComplaints, if_pos hunpacked]
      exact ⟨[], rfl⟩
    cases hp : s.paramAt? k with
    | none =>
      rw [typeComplaints, if_neg hunpacked, hp]
      exact ⟨[], rfl⟩
    | some p =>
      obtain ⟨⟨given, hgiven, hclass⟩, hothers⟩ := List.forall_mem_cons.mp hresolves
      obtain ⟨fits, hfits⟩ := acceptsArg_succeeds e p.type hclass
      obtain ⟨n, hn, hturn⟩ :=
        runFrom_typeComplaints_cons hunpacked hp hm hm' hl hgiven hfits
      rw [hturn, continueWith] at hl ⊢
      rcases hr : (t.typeComplaints e s callee (k + 1) rest).runFrom n with ⟨cause | others, n'⟩
      · rw [runFrom_bind_error hr] at hl
        obtain ⟨_, hok⟩ := ih (k + 1) hn (hr ▸ hl) hothers
        rw [hr] at hok
        cases hok
      · rw [runFrom_bind_ok hr]
        exact ⟨_, rfl⟩

/-- If the loop succeeds, it has found all that there is to say, by induction on the arguments. -/
theorem exact_of_ok (k : Nat) {args : List Arg} {cs : List Complaint} (hm : AtRest t m)
    (hm' : AtRest t m') (hl : Later t ((t.typeComplaints e s callee k args).runFrom m).2 m')
    (hcs : ((t.typeComplaints e s callee k args).runFrom m).1 = .ok cs) :
    t.Exact m' e s callee k args cs := by
  induction args generalizing k m cs with
  | nil =>
    cases hcs
    exact .nil
  | cons arg rest ih =>
    by_cases hunpacked : arg.unpacked = true
    · rw [typeComplaints, if_pos hunpacked] at hcs
      cases hcs
      exact .unpacked hunpacked
    have hpacked : arg.unpacked = false := by simpa using hunpacked
    cases hp : s.paramAt? k with
    | none =>
      rw [typeComplaints, if_neg hunpacked, hp] at hcs
      cases hcs
      exact .beyond hp
    | some p =>
      obtain ⟨given, fits, n, hgiven, hfits, hn, hturn⟩ :=
        exists_turn_of_ok hunpacked hp hm hm' hl hcs
      have haccepts := accepts_of_ok hfits
      rw [hturn, continueWith] at hl hcs
      rcases hr : (t.typeComplaints e s callee (k + 1) rest).runFrom n with ⟨cause | others, n'⟩
      · rw [runFrom_bind_error hr] at hcs
        cases hcs
      · rw [runFrom_bind_ok hr] at hl hcs
        cases hcs
        have hexact := ih (k + 1) hn (hr ▸ hl) (by rw [hr])
        cases fits with
        | true => exact hexact.fitting hpacked hp hgiven (haccepts.mp rfl)
        | false =>
          refine hexact.misfitting hpacked hp hgiven ?_
          intro haccepted
          exact absurd (haccepts.mpr haccepted) nofun

/-- The loop finds all that there is to say. -/
theorem typeComplaints_exact (k : Nat) {args : List Arg} (hm : AtRest t m) (hm' : AtRest t m')
    (hl : Later t ((t.typeComplaints e s callee k args).runFrom m).2 m')
    (hresolves : ∀ arg ∈ args, t.Resolves m' e arg.value) :
    ∃ cs, ((t.typeComplaints e s callee k args).runFrom m).1 = .ok cs ∧
      t.Exact m' e s callee k args cs := by
  obtain ⟨cs, hcs⟩ := typeComplaints_succeeds k hm hm' hl hresolves
  exact ⟨cs, hcs, exact_of_ok k hm hm' hl hcs⟩

/-! ### The check -/

/-- A check that succeeds has found that the number of arguments does not fit, or all that there is
    to say about their types. -/
theorem argComplaints_of_ok {settings : Settings} {args : List Arg} {cs : List Complaint}
    (hm : AtRest t m)
    (hcs : ((t.argComplaints e settings s args callee).runFrom m).1 = .ok cs) :
    (∃ c, s.countComplaint? args callee = some c ∧ cs = [c]) ∨
      s.countComplaint? args callee = none ∧
        (settings.argumentTypes = false ∧ cs = [] ∨
          settings.argumentTypes = true ∧
            t.Exact ((t.argComplaints e settings s args callee).runFrom m).2 e s callee 0 args
              cs) := by
  have hrest := (t.argComplaints_repeatable e settings s args callee).atRest hm
  unfold argComplaints at hcs hrest ⊢
  cases hcount : s.countComplaint? args callee with
  | some c =>
    rw [hcount] at hcs
    cases hcs
    exact .inl ⟨c, rfl, rfl⟩
  | none =>
    rw [hcount] at hcs hrest
    refine .inr ⟨rfl, ?_⟩
    cases htypes : settings.argumentTypes with
    | false =>
      rw [htypes] at hcs
      cases hcs
      exact .inl ⟨rfl, rfl⟩
    | true =>
      rw [htypes] at hcs hrest
      exact .inr ⟨rfl, exact_of_ok 0 hm hrest (.refl _) hcs⟩

/-- **The check of arguments is exact.**  Where the types of all arguments and their classes can be
    looked up, the check gives an answer.  If no argument is unpacked and there are fewer than the
    parameters that are not optional, or more than all parameters of a callee that is not variadic,
    it is one complaint about the number.  Otherwise no complaint is about the number; if types
    are not compared there is none at all, and if they are, the complaints are about the arguments
    before the first unpacked one whose type is neither accepted as it is, nor by the hierarchy,
    nor outside of strict mode from scalar to scalar, in the order of the arguments. -/
theorem argComplaints_exact (hm : t.Arises m) (e : Env) (settings : Settings) (s : Signature)
    (args : List Arg) (callee : Callee) :
    let m' := ((t.argComplaints e settings s args callee).runFrom m).2
    let outside := (∀ arg ∈ args, arg.unpacked = false) ∧
      (args.length < (s.params.filter fun p => !p.optional).length ∨
        s.isVariadic = false ∧ s.params.length < args.length)
    (∀ arg ∈ args, t.Resolves m' e arg.value) →
    ∃ cs, ((t.argComplaints e settings s args callee).runFrom m).1 = .ok cs ∧
      (outside → cs = [.argumentCount callee args.length s.leastArgs s.mostArgs]) ∧
      (¬ outside →
        (∀ given least most, .argumentCount callee given least most ∉ cs) ∧
        (settings.argumentTypes = false → cs = []) ∧
        (settings.argumentTypes = true →
          cs.Pairwise (fun a b => a.position < b.position) ∧
          (∀ c ∈ cs, ∃ i p given, s.paramAt? i = some p ∧ t.Misfit m' e args i p given ∧
            c = .argumentType callee (i + 1) p.name p.type given) ∧
          ∀ (i : Nat) (hi : i < s.params.length) (param : String) (expected given : PhpType),
            .argumentType callee (i + 1) param expected given ∈ cs ↔
              param = s.params[i].name ∧ expected = s.params[i].type ∧
                t.Misfit m' e args i s.params[i] given)) := by
  intro m' outside hresolves
  have hcount := s.countComplaint?_eq args callee
  by_cases hout : outside
  · rw [if_pos hout] at hcount
    refine ⟨_, ?_, fun _ => rfl, absurd hout⟩
    rw [argComplaints, hcount]
    rfl
  · rw [if_neg hout] at hcount
    cases htypes : settings.argumentTypes with
    | false =>
      refine ⟨[], ?_, fun h => absurd h hout, fun _ => ⟨by simp, fun _ => rfl, nofun⟩⟩
      rw [argComplaints, hcount, htypes]
      rfl
    | true =>
      have hloop : t.argComplaints e settings s args callee
          = t.typeComplaints e s callee 0 args := by
        rw [argComplaints, hcount, htypes]
        rfl
      have hrest : AtRest t m' :=
        (t.argComplaints_repeatable e settings s args callee).atRest hm.atRest
      have hl : Later t ((t.typeComplaints e s callee 0 args).runFrom m).2 m' := by
        rw [← hloop]
        exact .refl m'
      obtain ⟨cs, hcs, hexact⟩ := typeComplaints_exact 0 hm.atRest hrest hl hresolves
      refine ⟨cs, ?_, fun h => absurd h hout, fun _ => ⟨hexact.not_argumentCount, nofun, ?_⟩⟩
      · rw [hloop]
        exact hcs
      · intro _
        exact ⟨hexact.increasing, hexact.sound, fun i hi => hexact.mem_iff hi⟩

end SymbolTable

/-! ### The kennel -/

namespace Kennel

/-- Someone with a name is walked for some hours, somewhere. -/
def walk : Signature where
  name := "walk"
  params := [{ name := "hours", type := .of .integer false }, { name := "who", type := .object "Named" },
    { name := "place", type := .of .string false, optional := true }]
  result := .null

/-- A dog for the hours, a dog to be walked, a number for the place, and whatever a list holds. -/
def walkArgs : List Arg :=
  [{ value := .variable {} (.literal "dog") }, { value := .variable {} (.literal "dog") },
    { value := .int {} 7 }, { value := .array {} [], unpacked := true }]

/-- What is remembered after the check. -/
def walked : Memory :=
  ((cloneable.argComplaints yard { argumentTypes := true } walk walkArgs
    (.method "walk")).runFrom {}).2

/-- A dog is no number of hours, but it has a name, and a number can stand for a place. -/
theorem walk_checked :
    cloneable.Arises {} ∧ (∀ arg ∈ walkArgs, cloneable.Resolves walked yard arg.value) ∧
      ((cloneable.argComplaints yard { argumentTypes := true } walk walkArgs
          (.method "walk")).runFrom {}).1
        = .ok [.argumentType (.method "walk") 1 "hours" (.of .integer false) (.object "Dog")] ∧
      cloneable.Misfit walked yard walkArgs 0 walk.params[0] (.object "Dog") ∧
      ¬ cloneable.Misfit walked yard walkArgs 1 walk.params[1] (.object "Dog") := by
  have hresolves : ∀ arg ∈ walkArgs, cloneable.Resolves walked yard arg.value := by
    have hdog : ∀ className ∈ (PhpType.object "Dog").className?,
        ∃ found, ((cloneable.classInfo? className).runFrom walked).1 = .ok found := by
      rintro _ ⟨⟩
      exact ⟨_, rfl⟩
    intro arg harg
    simp only [walkArgs, List.mem_cons, List.not_mem_nil, or_false] at harg
    rcases harg with rfl | rfl | rfl | rfl
    · exact ⟨.object "Dog", rfl, hdog⟩
    · exact ⟨.object "Dog", rfl, hdog⟩
    · exact ⟨.of .integer false, rfl, nofun⟩
    · exact ⟨.of .array false, rfl, nofun⟩
  obtain ⟨cs, hcs, -, hfits⟩ := SymbolTable.argComplaints_exact .start yard { argumentTypes := true }
    walk walkArgs (.method "walk") hresolves
  have hrun : ((cloneable.argComplaints yard { argumentTypes := true } walk walkArgs
      (.method "walk")).runFrom {}).1
        = .ok [.argumentType (.method "walk") 1 "hours" (.of .integer false) (.object "Dog")] := rfl
  cases hcs.symm.trans hrun
  obtain ⟨-, -, htypes⟩ := hfits (by simp [walkArgs])
  obtain ⟨-, -, hexact⟩ := htypes rfl
  refine ⟨.start, hresolves, hrun, ((hexact 0 (by decide) _ _ _).mp List.mem_cons_self).2.2, ?_⟩
  intro hmisfit
  have hmem := (hexact 1 (by decide) _ _ _).mpr ⟨rfl, rfl, hmisfit⟩
  cases List.mem_singleton.mp hmem

end Kennel

end PhpCheck
