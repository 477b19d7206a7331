/-
  PhpCheck/Proofs/Rules/HintedClasses.lean
  ========================================
  **Hints and the types they give** — the check of a signature and the typing of
  parameters read the same hints in the same way.

  Each has its own list of the names that are no classes.  A hint is skipped by
  the check just if the type it gives is not that of a class, and a class that is
  looked up is the class of this type (`TypeHint.className?_ofHint`); so what
  the check finds can be told from the types alone (`runFrom_signatureFindings`).
  The one exception is `self`, which the check skips, and which has a class
  where a closure stands within one.
-/
import PhpCheck.Env.Enter
import PhpCheck.Proofs.Analysis.Order

namespace PhpCheck

open Analysis

/-! ### The class of a hint -/

/-- A hint that is not builtin gives the type of the class that it names, and a builtin one does
    not give that of a class unless it is `self` and there is a class around it. -/
theorem TypeHint.className?_ofHint (h : TypeHint) (nullable : Bool) (current : Option String) :
    (PhpType.ofHint (some h) nullable current).className? =
      if h.isBuiltin then if Text.sameName h.name "self" then current else none
      else some (Text.withoutRoot h.name) := by
  have hself : Text.lowercase "self" = "self" := by decide
  rw [isBuiltin, Text.sameName, hself, PhpType.className?, PhpType.ofHint, PhpType.kind_of]
  generalize hkind : h.kind current = kind
  unfold TypeHint.kind at hkind
  -- One case for each keyword, and one for what is no keyword.
  split at hkind
  case h_7 hword =>
    subst hkind
    rw [hword]
    cases current <;> rfl
  case h_14 =>
    subst hkind
    simp_all [builtinNames]
  all_goals
    rename_i hword
    subst hkind
    rw [hword]
    rfl

theorem TypeHint.isBuiltin_iff (h : TypeHint) (nullable : Bool) :
    h.isBuiltin = true ↔ (PhpType.ofHint (some h) nullable none).className? = none := by
  rw [className?_ofHint]
  cases h.isBuiltin <;> simp

/-! ### The check -/

/-- The class of a type, if it is not known. -/
def PhpType.missing? (known : String → Bool) (type : PhpType) : Option String :=
  type.className?.filter fun className => !known className

namespace SymbolTable

variable {t : SymbolTable} {m : Memory} {known : String → Bool}

/-- The check looks up the class of the type that a hint gives, and nothing else. -/
theorem unknownClass?_eq (t : SymbolTable) (hint : Option TypeHint) :
    t.unknownClass? hint =
      match (PhpType.ofHint hint false none).className? with
      | some className => do return if ← t.hasClass className then none else some className
      | none => return none := by
  cases hint with
  | none => rfl
  | some h =>
    rw [h.className?_ofHint]
    cases hbuiltin : h.isBuiltin with
    | true => simp [unknownClass?, hbuiltin]
    | false => simp [unknownClass?, hbuiltin]

section Known

variable (hknown : ∀ name, ((t.hasClass name).runFrom m).1 = .ok (known name))
include hknown

theorem runFrom_hasClass_of_known (name : String) :
    (t.hasClass name).runFrom m = (.ok (known name), m) := by
  have hkept : ((t.hasClass name).runFrom m).2 = m := by rw [runFrom_hasClass]
  exact Prod.ext (hknown name) hkept

theorem runFrom_unknownClass? (hint : Option TypeHint) :
    (t.unknownClass? hint).runFrom m
      = (.ok ((PhpType.ofHint hint false none).missing? known), m) := by
  rw [unknownClass?_eq, PhpType.missing?]
  cases (PhpType.ofHint hint false none).className? with
  | none => rfl
  | some className =>
    have hrun := runFrom_hasClass_of_known hknown className
    simp only [runFrom_bind_ok hrun, runFrom_pure, Option.filter_some]
    cases known className <;> rfl

theorem runFrom_mapM_paramFinding? (owner : HintOwner) (params : List Param) :
    (params.mapM (t.paramFinding? owner)).runFrom m =
      (.ok (params.map fun p => ((PhpType.ofHint p.hint false none).missing? known).map
        fun className => ⟨.unknownParamClass owner p.name className, p.span.line?⟩), m) := by
  induction params with
  | nil => rfl
  | cons p rest ih =>
    have hp : (t.paramFinding? owner p).runFrom m =
        (.ok (((PhpType.ofHint p.hint false none).missing? known).map
          fun className => ⟨.unknownParamClass owner p.name className, p.span.line?⟩), m) :=
      runFrom_bind_ok (runFrom_unknownClass? hknown p.hint) _
    rw [List.mapM_cons, runFrom_bind_ok hp, runFrom_bind_ok ih]
    rfl

end Known

end SymbolTable

/-! ### Parameters of closures -/

/-- Steps that each keep what stands under a name keep it together. -/
theorem NameMap.get?_foldl_of_keeps {α β : Type} {step : NameMap α → β → NameMap α} {xs : List β}
    {name : String} (h : ∀ x ∈ xs, ∀ m, (step m x).get? name = m.get? name) (m : NameMap α) :
    (xs.foldl step m).get? name = m.get? name := by
  induction xs generalizing m with
  | nil => rfl
  | cons x rest ih =>
    obtain ⟨hx, hrest⟩ := List.forall_mem_cons.mp h
    rw [List.foldl_cons, ih hrest, hx]

namespace Env

variable {e : Env} {name : String}

theorem get?_capture_of_ne {c : Capture} (hne : name ≠ c.name) (m : NameMap PhpType) :
    (e.capture m c).get? name = m.get? name := by
  unfold capture
  split
  · rw [NameMap.get?_insert, if_neg hne]
  · split
    · rw [NameMap.get?_insert, if_neg hne]
    · rfl

/-- In a closure a parameter has the type of its hint, unless another variable of the closure takes
    its name. -/
theorem bound?_enterClosure {before after : List Param} {p : Param} {captures : List Capture}
    (hafter : p.name ∉ after.map (·.name)) (hcaptures : p.name ∉ captures.map (·.name))
    (hthis : p.name ≠ "this") :
    (e.enterClosure (before ++ p :: after) captures).bound? p.name
      = some (p.type e.className) := by
  have hparams : ∀ m : NameMap PhpType, ((before ++ p :: after).foldl
      (fun m q => m.insert q.name (q.type e.className)) m).get? p.name
        = some (p.type e.className) := by
    intro m
    rw [List.foldl_append, List.foldl_cons, NameMap.get?_foldl_of_keeps, NameMap.get?_insert,
      if_pos rfl]
    intro q hq n
    have hne : p.name ≠ q.name := fun h => hafter (h ▸ List.mem_map_of_mem hq)
    rw [NameMap.get?_insert, if_neg hne]
  have hcaptured : ∀ m : NameMap PhpType,
      (captures.foldl e.capture m).get? p.name = m.get? p.name :=
    NameMap.get?_foldl_of_keeps fun c hc =>
      get?_capture_of_ne fun h => hcaptures (h ▸ List.mem_map_of_mem hc)
  have hvariable : (e.closureVariables (before ++ p :: after) captures).get? p.name
      = some (p.type e.className) := by
    unfold closureVariables
    split
    · rw [NameMap.get?_insert, if_neg hthis, hcaptured, hparams]
    · rw [hcaptured, hparams]
  exact hvariable

end Env

/-! ### Both -/

/-- **What the check of a signature finds.**  Where all look-ups of classes have an answer, it finds
    the parameters, in order, whose hint gives the type of a class that is not known, each with this
    class and its own line, and then the result, if the same holds of its hint.

    What it looks up is the class of this type; it skips the hints whose type has none, nullable or
    not; and in a closure a parameter has this class, `self` being that of the class around. -/
theorem SymbolTable.runFrom_signatureFindings {t : SymbolTable} {m : Memory}
    {known : String → Bool}
    (hknown : ∀ name, ((t.hasClass name).runFrom m).1 = .ok (known name))
    (owner : HintOwner) (params : List Param) (result : Option TypeHint) :
    (t.signatureFindings owner params result).runFrom m =
      (.ok ((params.filterMap fun p => ((PhpType.ofHint p.hint false none).missing? known).map
          fun className => ⟨.unknownParamClass owner p.name className, p.span.line?⟩)
        ++ (((PhpType.ofHint result false none).missing? known).map
          fun className => ⟨.unknownResultClass owner className, none⟩).toList), m) ∧
    (∀ hint, t.unknownClass? hint =
      match (PhpType.ofHint hint false none).className? with
      | some className => do return if ← t.hasClass className then none else some className
      | none => return none) ∧
    (∀ (h : TypeHint) (nullable : Bool), h.isBuiltin = true ↔
      (PhpType.ofHint (some h) nullable none).className? = none) ∧
    ∀ (e : Env) (before after : List Param) (p : Param) (captures : List Capture),
      p.name ∉ after.map (·.name) → p.name ∉ captures.map (·.name) → p.name ≠ "this" →
      ((e.enterClosure (before ++ p :: after) captures).bound? p.name).map (·.className?) =
        some (p.hint.bind fun h =>
          if h.isBuiltin then if Text.sameName h.name "self" then e.className else none
          else (PhpType.ofHint (some h) false none).className?) := by
  refine ⟨?_, t.unknownClass?_eq, fun h nullable => h.isBuiltin_iff nullable, ?_⟩
  · have hparams := runFrom_mapM_paramFinding? hknown owner params
    rw [signatureFindings, runFrom_bind_ok hparams,
      runFrom_bind_ok (runFrom_unknownClass? hknown result), runFrom_pure, List.filterMap_map]
    rfl
  · intro e before after p captures hafter hcaptures hthis
    rw [Env.bound?_enterClosure hafter hcaptures hthis, Option.map_some, Param.type]
    cases p.hint with
    | none => rfl
    | some h =>
      rw [h.className?_ofHint, Option.bind_some, h.className?_ofHint]
      cases h.isBuiltin <;> rfl

/-! ### Puppies -/

namespace Kennel

/-- Takes a dog, a puppy, a litter and itself, and gives back a puppy. -/
def adopt : List Param :=
  [{ name := "mother", hint := some { name := "\\Dog" } },
    { name := "puppy", hint := some { name := "\\Puppy", nullable := true },
      span := .point 4 9 },
    { name := "litter", hint := some { name := "ARRAY" } },
    { name := "count", hint := some { name := "\\int" } },
    { name := "kennel", hint := some { name := "Self" } }]

/-- There are no puppies in the kennel, nor is `\int` a keyword. -/
theorem no_puppies :
    let known := (kennel.classes.contains ·)
    (∀ name, ((cloneable.hasClass name).runFrom {}).1 = .ok (known name)) ∧
      (cloneable.signatureFindings .closure adopt (some { name := "Puppy" })).runFrom {} =
        (.ok [⟨.unknownParamClass .closure "puppy" "Puppy", some 4⟩,
          ⟨.unknownParamClass .closure "count" "int", none⟩,
          ⟨.unknownResultClass .closure "Puppy", none⟩], {}) ∧
      ((yard.enterClosure adopt []).bound? "puppy").map (·.className?) = some (some "Puppy") := by
  intro known
  have hknown : ∀ name, ((cloneable.hasClass name).runFrom {}).1 = .ok (known name) := by
    intro name
    rw [SymbolTable.runFrom_hasClass]
    rfl
  obtain ⟨hfindings, -, -, hclosure⟩ :=
    SymbolTable.runFrom_signatureFindings hknown .closure adopt (some { name := "Puppy" })
  have hpuppy := hclosure yard (adopt.take 1) (adopt.drop 2)
    { name := "puppy", hint := some { name := "\\Puppy", nullable := true }, span := .point 4 9 } []
    (by decide) (by decide) (by decide)
  exact ⟨hknown, hfindings, hpuppy⟩

end Kennel

end PhpCheck
