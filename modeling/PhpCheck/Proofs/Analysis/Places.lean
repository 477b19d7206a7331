/-
  PhpCheck/Proofs/Analysis/Places.lean
  ====================================
  **Places never influence the analysis** — two expressions that are equal but for
  the places of their parts have one type, and the rules say the same of them.

  Narrowed types stand under source forms, and these have no places.  So inference
  sees an expression as it sees the bare one (`Expr.infer_bare`), and a rule, which
  comes by the parts of an expression through inference only, says the same of both
  (`Rule.complaints_bare`).  A place shows in the line of a finding alone.

  An extension for calls is handed the call as it stands, and has to leave the places
  in it aside (`SymbolTable.IgnoresPlaces`).
-/
import PhpCheck.Proofs.Analysis.Answers
import PhpCheck.Proofs.Analysis.Frame
import PhpCheck.Proofs.Analysis.LessKnown
import PhpCheck.Proofs.Code.Bare

namespace PhpCheck

open Analysis

/-! ### Extensions -/

/-- What the extension says of a call it says of the call without its places. -/
def ReturnExtension.IgnoresPlaces (x : ReturnExtension) : Prop :=
  ∀ (m : MethodInfo) (call : Expr) (e : Env), x.answer m call.bare e = x.answer m call e

namespace SymbolTable

def IgnoresPlaces (t : SymbolTable) : Prop :=
  ∀ {className : String} {xs : List ReturnExtension},
    t.returnExtensions.get? className = some xs → ∀ x ∈ xs, x.IgnoresPlaces

theorem ignoresPlaces_register {t : SymbolTable} (ht : t.returnExtensions = .empty)
    {xs : List ReturnExtension} (h : ∀ x ∈ xs, x.IgnoresPlaces) :
    (t.register xs).IgnoresPlaces := by
  intro className ys hys x hx
  rw [get?_register ht] at hys
  split at hys
  · cases hys
  · cases hys
    exact h x (List.mem_of_mem_filter hx)

theorem IgnoresPlaces.methodAnswer_bare {t : SymbolTable} (hx : t.IgnoresPlaces) (e : Env)
    (call : Expr) (receiver : PhpType) (name : String) :
    t.methodAnswer e call.bare receiver name = t.methodAnswer e call receiver name :=
  methodAnswer_congr (fun hxs x hmem m => hx hxs x hmem m call e) receiver name

end SymbolTable

/-! ### Narrowed types -/

namespace Env

variable (e : Env) (x : Expr)

theorem narrowing?_bare : e.narrowing? x.bare = e.narrowing? x := by
  rw [narrowing?_eq, narrowing?_eq, x.text_bare]

theorem narrowedOr_bare (otherwise : PhpType) :
    e.narrowedOr x.bare otherwise = e.narrowedOr x otherwise := by
  rw [narrowedOr, narrowedOr, e.narrowing?_bare]

theorem isNarrowed_bare : e.isNarrowed x.bare = e.isNarrowed x := by
  rw [isNarrowed, isNarrowed, e.narrowing?_bare]

theorem narrow_bare (className : String) : e.narrow x.bare className = e.narrow x className := by
  rw [narrow, narrow, x.variableName?_bare, x.text_bare]

end Env

/-! ### Types -/

section Inference

variable {t : SymbolTable}

mutual

/-- Inference sees the bare expression, by induction on the expression. -/
theorem Expr.infer_bare (hx : t.IgnoresPlaces) (e : Env) (x : Expr) :
    x.bare.infer t e = x.infer t e := by
  -- Apart from its parts, inference looks at an expression for what is narrowed of it, and at a
  -- call for what the extensions answer.
  have hnarrowing := e.narrowing?_bare x
  have hnarrowed := e.narrowedOr_bare x
  cases x with
  | unary _ op operand =>
    cases op with
    | not => rfl
    | minus | plus => exact operand.infer_bare hx e
  | binary span op left right =>
    simp only [Expr.bare] at hnarrowed
    simp only [Expr.bare, Expr.infer, left.infer_bare hx e, right.infer_bare hx e, hnarrowed]
  | compoundAssign span op target value =>
    simp only [Expr.bare] at hnarrowed
    simp only [Expr.bare, Expr.infer, target.infer_bare hx e, value.infer_bare hx e, hnarrowed]
  | int | float | string | array | cast => rfl
  | constant | assign | instanceOf | staticCall | staticProperty | closure =>
    simp only [Expr.bare] at hnarrowed
    simp only [Expr.bare, Expr.infer, hnarrowed]
  | new span className args =>
    simp only [Expr.bare] at hnarrowed
    simp only [Expr.bare, Expr.infer, className.literal?_bare, hnarrowed]
  | classConstant span className name =>
    cases className <;>
      · simp only [Expr.bare, Name.bare] at hnarrowed
        simp only [Expr.bare, Name.bare, Expr.infer, hnarrowed]
  | «variable» span name =>
    cases name <;>
      · simp only [Expr.bare, Name.bare] at hnarrowed
        simp only [Expr.bare, Name.bare, Expr.infer, hnarrowed]
  | property span receiver name =>
    cases name <;>
      · simp only [Expr.bare, Name.bare] at hnarrowing
        simp only [Expr.bare, Name.bare, Expr.infer, hnarrowing, receiver.infer_bare hx e]
  | call span function args =>
    cases function <;>
      · simp only [Expr.bare, Name.bare] at hnarrowing
        simp only [Expr.bare, Name.bare, Expr.infer, hnarrowing]
  | methodCall span receiver method args =>
    have hanswer := hx.methodAnswer_bare e (.methodCall span receiver method args)
    cases method <;>
      · simp only [Expr.bare, Name.bare] at hnarrowing hanswer
        simp only [Expr.bare, Name.bare, Expr.infer, hnarrowing, receiver.infer_bare hx e, hanswer,
          inferArg_bare hx e args]

theorem inferArg_bare (hx : t.IgnoresPlaces) (e : Env) (args : List Arg) (index : Nat) :
    inferArg t e (bareArgs args) index = inferArg t e args index := by
  match args, index with
  | [], _ => rfl
  | ⟨value, _, _⟩ :: _, 0 => exact value.infer_bare hx e
  | ⟨_, _, _⟩ :: rest, index + 1 => exact inferArg_bare hx e rest index

end

end Inference

/-! ### Arguments -/

namespace Signature

variable (s : Signature) (args : List Arg)

theorem countedArgs_bareArgs : s.countedArgs (bareArgs args) = s.countedArgs args := by
  have hunpacked : (args.map Arg.bare).any (·.unpacked) = args.any (·.unpacked) := by
    rw [List.any_map]
    exact congrArg args.any (funext Arg.unpacked_bare)
  rw [countedArgs, countedArgs, bareArgs_eq_map, hunpacked, List.length_map]

theorem countComplaint?_bareArgs (callee : Callee) :
    s.countComplaint? (bareArgs args) callee = s.countComplaint? args callee := by
  rw [countComplaint?, countComplaint?, s.countedArgs_bareArgs]

end Signature

namespace SymbolTable.IgnoresPlaces

variable {t : SymbolTable} (hx : t.IgnoresPlaces) (e : Env) (settings : Settings)

include hx

theorem typeComplaints_bareArgs (s : Signature) (callee : Callee) (index : Nat)
    (args : List Arg) :
    t.typeComplaints e s callee index (bareArgs args)
      = t.typeComplaints e s callee index args := by
  induction args generalizing index with
  | nil => rfl
  | cons arg rest ih =>
    simp only [bareArgs, typeComplaints, arg.unpacked_bare, arg.value_bare,
      arg.value.infer_bare hx e, ih]

theorem argComplaints_bareArgs (s : Signature) (args : List Arg) (callee : Callee) :
    t.argComplaints e settings s (bareArgs args) callee
      = t.argComplaints e settings s args callee := by
  simp only [argComplaints, s.countComplaint?_bareArgs, hx.typeComplaints_bareArgs]

theorem methodComplaints_bareArgs (c : ClassInfo) (name : String) (args : List Arg) :
    t.methodComplaints e settings c name (bareArgs args)
      = t.methodComplaints e settings c name args := by
  simp only [methodComplaints, hx.argComplaints_bareArgs]

theorem staticCallComplaints_bareArgs (currentName written name : String) (args : List Arg) :
    t.staticCallComplaints e settings currentName written name (bareArgs args)
      = t.staticCallComplaints e settings currentName written name args := by
  simp only [staticCallComplaints, staticMethodComplaints, parentCallComplaints,
    hx.argComplaints_bareArgs]

theorem instantiationComplaints_bareArgs (className : String) (args : List Arg) :
    t.instantiationComplaints e settings className (bareArgs args)
      = t.instantiationComplaints e settings className args := by
  have hempty : (bareArgs args).isEmpty = args.isEmpty := by
    rw [bareArgs_eq_map, List.isEmpty_map]
  simp only [instantiationComplaints, hx.argComplaints_bareArgs, hempty]

end SymbolTable.IgnoresPlaces

/-! ### Hints -/

theorem Analysis.map_mapM {α β γ : Type} (g : β → γ) (f : α → Analysis β) (as : List α) :
    List.map g <$> as.mapM f = as.mapM fun a => g <$> f a := by
  induction as with
  | nil => rfl
  | cons a rest ih =>
    rw [List.mapM_cons, List.mapM_cons, ← ih]
    simp only [map_bind, map_pure, bind_map_left, List.map_cons]

namespace SymbolTable

variable (t : SymbolTable) (owner : HintOwner)

/-- The place of a parameter is the line of a finding, and nothing else. -/
theorem paramFinding?_bare (p : Param) :
    Option.map Finding.complaint <$> t.paramFinding? owner p.bare
      = Option.map Finding.complaint <$> t.paramFinding? owner p := by
  obtain ⟨name, hint, default, byRef, variadic, span⟩ := p
  simp only [paramFinding?, Param.bare, map_bind, map_pure, Option.map_map, Function.comp_def]

/-- The complaints about a signature: of its parameters in order, then of its result. -/
theorem complaints_signatureFindings (params : List Param) (result : Option TypeHint) :
    List.map Finding.complaint <$> t.signatureFindings owner params result
      = (params.mapM fun p => Option.map Finding.complaint <$> t.paramFinding? owner p) >>=
          fun ofParams => t.unknownClass? result >>= fun unknown =>
            pure (ofParams.filterMap id
              ++ (unknown.map (Complaint.unknownResultClass owner)).toList) := by
  rw [← Analysis.map_mapM]
  simp only [signatureFindings, map_bind, map_pure, bind_map_left]
  refine bind_congr fun found => bind_congr fun unknown => ?_
  cases unknown <;> simp [List.map_filterMap, List.filterMap_map]

theorem complaints_bareParams (params : List Param) (result : Option TypeHint) :
    List.map Finding.complaint <$> t.signatureFindings owner (bareParams params) result
      = List.map Finding.complaint <$> t.signatureFindings owner params result := by
  rw [complaints_signatureFindings, complaints_signatureFindings, bareParams_eq_map,
    List.mapM_map]
  congr 2
  exact funext (t.paramFinding?_bare owner)

end SymbolTable

/-! ### Rules -/

/-- What a rule says of a node, without the lines. -/
def Rule.complaints (r : Rule) (t : SymbolTable) (e : Env) (node : Node) :
    Analysis (List Complaint) :=
  List.map Finding.complaint <$> r.check t e node

theorem Rule.complaints_repeatable {settings : Settings} {r : Rule}
    (hr : r ∈ RuleSet.defaults settings) (t : SymbolTable) (e : Env) (node : Node) :
    Repeatable t (r.complaints t e node) := by
  rw [Rule.complaints, map_eq_pure_bind]
  exact (RuleSet.defaults_repeatable t e hr node).bind fun findings => .pure _

section Rules

variable {t : SymbolTable} (e : Env) (settings : Settings)

theorem methodCallFindings_bare (hx : t.IgnoresPlaces) (x : Expr) :
    methodCallFindings settings t e (.expr x.bare) = methodCallFindings settings t e (.expr x) := by
  cases x with
  | methodCall span receiver method args =>
    cases method with
    | literal name =>
      simp only [Expr.bare, Name.bare, methodCallFindings, receiver.infer_bare hx e,
        hx.methodComplaints_bareArgs]
    | computed value => rfl
  | _ => rfl

theorem staticCallFindings_bare (hx : t.IgnoresPlaces) (x : Expr) :
    staticCallFindings settings t e (.expr x.bare) = staticCallFindings settings t e (.expr x) := by
  cases x with
  | staticCall span className method args =>
    cases className with
    | literal written =>
      cases method with
      | literal name =>
        simp only [Expr.bare, Name.bare, staticCallFindings, hx.staticCallComplaints_bareArgs]
      | computed value => rfl
    | computed value => rfl
  | _ => rfl

theorem instantiationFindings_bare (hx : t.IgnoresPlaces) (x : Expr) :
    instantiationFindings settings t e (.expr x.bare)
      = instantiationFindings settings t e (.expr x) := by
  cases x with
  | new span className args =>
    cases className with
    | literal written =>
      simp only [Expr.bare, Name.bare, instantiationFindings, hx.instantiationComplaints_bareArgs]
    | computed value => rfl
  | _ => rfl

theorem SymbolTable.staticPropertyComplaints_bare (t : SymbolTable) (fetch : Expr)
    (className name : String) :
    t.staticPropertyComplaints e fetch.bare className name
      = t.staticPropertyComplaints e fetch className name := by
  rw [staticPropertyComplaints, staticPropertyComplaints, e.isNarrowed_bare]

theorem staticPropertyFindings_bare (t : SymbolTable) (x : Expr) :
    staticPropertyFindings t e (.expr x.bare) = staticPropertyFindings t e (.expr x) := by
  cases x with
  | staticProperty span className name =>
    cases className with
    | literal written =>
      cases name with
      | literal name =>
        have hfetch := t.staticPropertyComplaints_bare e
          (.staticProperty span (.literal written) (.literal name))
        simp only [Expr.bare, Name.bare] at hfetch
        simp only [Expr.bare, Name.bare, staticPropertyFindings, hfetch]
      | computed value => rfl
    | computed value => rfl
  | _ => rfl

theorem closureHintFindings_bare (t : SymbolTable) (x : Expr) :
    List.map Finding.complaint <$> closureHintFindings t e (.expr x.bare)
      = List.map Finding.complaint <$> closureHintFindings t e (.expr x) := by
  cases x with
  | closure span signature =>
    obtain ⟨params, captures, result, byRef, isStatic, place⟩ := signature
    simp only [Expr.bare, Closure.bare, closureHintFindings, t.complaints_bareParams]
  | _ => rfl

/-- What a rule says of an expression it says of the bare one. -/
theorem Rule.complaints_bare (hx : t.IgnoresPlaces) {r : Rule}
    (hr : r ∈ RuleSet.defaults settings) (x : Expr) :
    r.complaints t e (.expr x.bare) = r.complaints t e (.expr x) := by
  unfold Rule.complaints
  simp only [RuleSet.defaults, List.mem_cons, List.not_mem_nil, or_false] at hr
  rcases hr with rfl | rfl | rfl | rfl | rfl | rfl
  · exact congrArg _ (methodCallFindings_bare e settings hx x)
  · exact congrArg _ (staticCallFindings_bare e settings hx x)
  · exact congrArg _ (instantiationFindings_bare e settings hx x)
  · exact congrArg _ (staticPropertyFindings_bare e t x)
  · rfl
  · exact closureHintFindings_bare e t x

end Rules

/-- **Places never influence the analysis**, as long as they do not influence the extensions for
    calls.  Two expressions that are equal but for the places of their parts have one source form,
    are narrowed alike, and to narrow the one is to narrow the other.  They have one type, and each
    rule has the same complaints about them in the same order, or fails in the same way for both,
    be it asked from one memory or about one right after the other. -/
theorem Expr.places_without_influence {t : SymbolTable} (hx : t.IgnoresPlaces) {a b : Expr}
    (h : a.bare = b.bare) (e : Env) :
    a.text = b.text ∧ e.isNarrowed a = e.isNarrowed b ∧
      (∀ className, e.narrow a className = e.narrow b className) ∧
      t.Agree (a.infer t e) (b.infer t e) ∧
      ∀ (settings : Settings), ∀ r ∈ RuleSet.defaults settings,
        t.Agree (r.complaints t e (.expr a)) (r.complaints t e (.expr b)) := by
  refine ⟨?_, ?_, fun className => ?_, ?_, fun settings r hr => ?_⟩
  · rw [← a.text_bare, h, b.text_bare]
  · rw [← e.isNarrowed_bare a, h, e.isNarrowed_bare b]
  · rw [← e.narrow_bare a, h, e.narrow_bare b]
  · refine (a.infer_repeatable t e).agree ?_
    rw [← a.infer_bare hx e, h, b.infer_bare hx e]
  · refine (Rule.complaints_repeatable hr t e _).agree ?_
    rw [← Rule.complaints_bare e settings hx hr a, h, Rule.complaints_bare e settings hx hr b]

/-! ### The kennel -/

namespace Kennel

/-- Says of the age of a dog that it has the type of the last argument. -/
def lastArgument : ReturnExtension where
  className := "Dog"
  supports f := decide (f.name = "age")
  answer _ call _ := .ofArgument (call.args.length - 1)

theorem lastArgument_ignoresPlaces : lastArgument.IgnoresPlaces := by
  intro m call e
  simp only [lastArgument, call.args_bare, bareArgs_eq_map, List.length_map]

/-- A function that takes a kitten, somewhere. -/
def takingKitten (place : Span) : Expr :=
  .closure place
    { params := [{ name := "k", hint := some { name := "Kitten" }, span := place }], span := place }

/-- A dog is asked for its age, somewhere. -/
def ageOfDog (place : Span) : Expr :=
  .methodCall place (.variable place (.literal "dog")) (.literal "age")
    [{ value := takingKitten place }, { value := .int place 3 }]

/-- On the third line the age is an integer, the method takes no arguments, and there are no
    kittens; so it is on the ninetieth. -/
theorem age_on_another_line :
    let t := cloneable.register [lastArgument]
    let calls : Rule := ⟨.methodCall, methodCallFindings {}⟩
    let hints : Rule := ⟨.closure, closureHintFindings⟩
    t.IgnoresPlaces ∧ (ageOfDog (.point 3 1)).bare = (ageOfDog (.point 90 5)).bare ∧
      (((ageOfDog (.point 3 1)).infer t yard).runFrom {}).1 = .ok (.of .integer false) ∧
      (((ageOfDog (.point 90 5)).infer t yard).runFrom
        (((ageOfDog (.point 3 1)).infer t yard).runFrom {}).2).1 = .ok (.of .integer false) ∧
      ((calls.complaints t yard (.expr (ageOfDog (.point 90 5)))).runFrom {}).1
        = .ok [.argumentCount (.method "Tagged::age()") 2 0 (some 0)] ∧
      ((hints.complaints t yard (.expr (takingKitten (.point 90 5)))).runFrom {}).1
        = .ok [.unknownParamClass .closure "k" "Kitten"] := by
  intro t calls hints
  have hx : t.IgnoresPlaces := by
    refine SymbolTable.ignoresPlaces_register rfl fun x hmem => ?_
    cases List.mem_singleton.mp hmem
    exact lastArgument_ignoresPlaces
  have hage : (ageOfDog (.point 3 1)).bare = (ageOfDog (.point 90 5)).bare := rfl
  have hkitten : (takingKitten (.point 3 1)).bare = (takingKitten (.point 90 5)).bare := rfl
  obtain ⟨-, -, -, hinfer, hrules⟩ := Expr.places_without_influence hx hage yard
  obtain ⟨-, -, -, -, hrules'⟩ := Expr.places_without_influence hx hkitten yard
  have hinteger : (((ageOfDog (.point 3 1)).infer t yard).runFrom {}).1
      = .ok (.of .integer false) := rfl
  have hcalls : calls ∈ RuleSet.defaults {} := .head _
  have hhints : hints ∈ RuleSet.defaults {} :=
    .tail _ (.tail _ (.tail _ (.tail _ (.tail _ (.head _)))))
  refine ⟨hx, hage, hinteger, ?_, ?_, ?_⟩
  · have hafter : t.Arises (((ageOfDog (.point 3 1)).infer t yard).runFrom {}).2 :=
      SymbolTable.Arises.start.after (.infer yard _)
    exact (hinfer.2 .start hafter (.inl rfl)).symm.trans hinteger
  · rw [← (hrules {} calls hcalls).1]
    rfl
  · rw [← (hrules' {} hints hhints).1]
    rfl

end Kennel

end PhpCheck
