/-
  PhpCheck/Proofs/Analysis/Answers.lean
  =====================================
  **Who answers for a call** — which of the registered extensions says what a call
  of a method gives.

  A table keeps the extensions for each class in a list of its own, in the order
  of their registration (`SymbolTable.get?_register`).  For a class it goes through
  the lists of its chain of parents, and the first extension that supports the
  method answers (`SymbolTable.nearest_extension_answers`).  So an extension for a
  nearer class shadows one for a class further up, whichever came first, and to
  register extensions of different classes in another order changes the type of no
  expression (`Expr.infer_withReturns`).
-/
import Mathlib.Data.List.Induction
import PhpCheck.Proofs.Analysis.Order
import PhpCheck.Proofs.Hierarchy.Lineage
import PhpCheck.Proofs.LookUp.Success

namespace PhpCheck

open Analysis

namespace NameMap

theorem isEmpty_entries_iff {α : Type} {m : NameMap α} :
    m.entries.isEmpty = true ↔ ∀ name, m.get? name = none := by
  rw [List.isEmpty_iff]
  constructor
  · intro h name
    rw [get?, h]
    rfl
  · intro h
    refine List.eq_nil_iff_forall_not_mem.mpr fun entry hentry => ?_
    have hsome : (m.entries.lookup entry.1).isSome = true :=
      isSome_lookup.mpr (List.mem_map_of_mem hentry)
    rw [show m.entries.lookup entry.1 = none from h entry.1] at hsome
    cases hsome

end NameMap

/-! ### Registration -/

/-- Those of a list of extensions that are for a class by itself, in the same order. -/
def extensionsOf (xs : List ReturnExtension) (className : String) : List ReturnExtension :=
  xs.filter fun x => x.className = className

/-- Taken together, the extensions of different classes are those for one of them. -/
theorem flatMap_extensionsOf_perm (xs : List ReturnExtension) {names : List String}
    (h : names.Nodup) :
    (names.flatMap (extensionsOf xs)).Perm (xs.filter fun x => x.className ∈ names) := by
  induction names with
  | nil => simp
  | cons name rest ih =>
    obtain ⟨hname, hrest⟩ := List.nodup_cons.mp h
    have hthis : (xs.filter fun x => x.className ∈ name :: rest).filter (·.className = name)
        = extensionsOf xs name := by
      rw [extensionsOf, List.filter_filter]
      refine List.filter_congr fun x _ => ?_
      by_cases hx : x.className = name <;> simp [hx]
    have hothers : (xs.filter fun x => x.className ∈ name :: rest).filter
        (fun x => !decide (x.className = name)) = xs.filter fun x => x.className ∈ rest := by
      rw [List.filter_filter]
      refine List.filter_congr fun x _ => ?_
      by_cases hx : x.className = name
      · simp [hx, hname]
      · simp [hx]
    rw [List.flatMap_cons]
    refine List.Perm.trans ?_ (List.filter_append_perm (·.className = name) _)
    rw [hthis, hothers]
    exact (ih hrest).append_left _

namespace SymbolTable

variable {t : SymbolTable} {C : String} {c : ClassInfo} {m m' : Memory}

/-- The table with extensions for types of calls, registered one after the other. -/
def register (t : SymbolTable) (xs : List ReturnExtension) : SymbolTable :=
  xs.foldl addReturnExtension t

theorem register_append (t : SymbolTable) (xs : List ReturnExtension) (x : ReturnExtension) :
    t.register (xs ++ [x]) = (t.register xs).addReturnExtension x := by
  simp [register]

/-- Registration changes nothing else. -/
theorem register_eq (t : SymbolTable) (xs : List ReturnExtension) :
    t.register xs = { t with returnExtensions := (t.register xs).returnExtensions } := by
  induction xs generalizing t with
  | nil => rfl
  | cons x rest ih => exact ih (t.addReturnExtension x)

theorem get?_register (ht : t.returnExtensions = .empty) (xs : List ReturnExtension)
    (name : String) :
    (t.register xs).returnExtensions.get? name
      = if extensionsOf xs name = [] then none else some (extensionsOf xs name) := by
  induction xs using List.reverseRecOn with
  | nil =>
    rw [register, List.foldl_nil, ht]
    rfl
  | append_singleton xs x ih =>
    have hget : ((t.register (xs ++ [x])).returnExtensions).get? name
        = if name = x.className then
            some (((t.register xs).returnExtensions.get? x.className).getD [] ++ [x])
          else (t.register xs).returnExtensions.get? name := by
      rw [register_append]
      exact NameMap.get?_insert _ _ _ _
    rw [hget]
    by_cases hname : name = x.className
    · subst hname
      have hlast : extensionsOf (xs ++ [x]) x.className = extensionsOf xs x.className ++ [x] := by
        simp [extensionsOf]
      have hbefore : ((t.register xs).returnExtensions.get? x.className).getD []
          = extensionsOf xs x.className := by
        rw [ih]
        split
        · rename_i hnil
          exact hnil.symm
        · rfl
      rw [if_pos rfl, hlast, hbefore, if_neg (by simp)]
    · have hsame : extensionsOf (xs ++ [x]) name = extensionsOf xs name := by
        simp [extensionsOf, Ne.symm hname]
      rw [if_neg hname, hsame, ih]

theorem getD_register (ht : t.returnExtensions = .empty) (xs : List ReturnExtension)
    (name : String) :
    ((t.register xs).returnExtensions.get? name).getD [] = extensionsOf xs name := by
  rw [get?_register ht]
  split
  · rename_i hnil
    exact hnil.symm
  · rfl

/-! ### The list for a class -/

/-- The extensions for a class that was found; without any extensions the class is not looked
    up. -/
theorem runFrom_returnExtensionsFor (h : (t.classInfo C).runFrom m = (.ok c, m')) :
    (t.returnExtensionsFor C).runFrom m
      = (.ok ((C :: c.ancestors).flatMap fun k => (t.returnExtensions.get? k).getD []),
          if t.returnExtensions.entries.isEmpty then m else m') := by
  unfold returnExtensionsFor
  by_cases hempty : t.returnExtensions.entries.isEmpty = true
  · have hnone : ∀ k, (t.returnExtensions.get? k).getD [] = [] := by
      intro k
      rw [NameMap.isEmpty_entries_iff.mp hempty k]
      rfl
    rw [if_pos hempty, if_pos hempty, List.flatMap_eq_nil_iff.mpr fun k _ => hnone k]
    rfl
  · rw [if_neg hempty, if_neg hempty, runFrom_bind_ok (runFrom_classInfo?_of_ok h)]
    rfl

/-- A class that was found is found again, and nothing happens on the way. -/
theorem runFrom_classInfo_again (hm : AtRest t m)
    (h : (t.classInfo C).runFrom m = (.ok c, m')) :
    (t.classInfo C).runFrom m' = (.ok c, m') := by
  obtain ⟨-, -, hfound⟩ := t.classInfo_finds m.building C m hm.faithful rfl
  rw [h] at hfound
  have hget : m'.classes.get? C = some c := hfound.2
  rw [runFrom_classInfo, runFrom_lookUpVia, hget]

/-- The method of a class that was found is answered for by the first extension that supports
    it, or else by its declaration. -/
theorem runFrom_methodAnswer (hm : AtRest t m) (h : (t.classInfo C).runFrom m = (.ok c, m'))
    {name : String} {f : MethodInfo} (hf : c.method? name = some f) (e : Env) (call : Expr)
    {receiver : PhpType} (hreceiver : receiver.className? = some C) :
    (t.methodAnswer e call receiver name).runFrom m
      = (.ok ((((C :: c.ancestors).flatMap fun k =>
            (t.returnExtensions.get? k).getD []).find? (·.supports f)).elim
          (.known (f.result.onReceiver receiver)) fun x => x.answer f call e), m') := by
  have hlisted := runFrom_returnExtensionsFor (runFrom_classInfo_again hm h)
  rw [ite_self] at hlisted
  rw [methodAnswer, hreceiver]
  dsimp only
  rw [runFrom_bind_ok (runFrom_classInfo?_of_ok h)]
  dsimp only
  rw [hf]
  dsimp only
  rw [runFrom_bind_ok hlisted]
  generalize List.find? _ _ = found
  cases found <;> rfl

end SymbolTable

/-! ### The order of different classes -/

section Rearranged

variable (t : SymbolTable) (r : NameMap (List ReturnExtension))

namespace SymbolTable

theorem classInfo_withReturns : { t with returnExtensions := r }.classInfo = t.classInfo := by
  have hlookUp : ∀ (deeper : String → Analysis ClassInfo) (depth : Nat),
      { t with returnExtensions := r }.lookUp deeper depth = t.lookUp deeper depth := by
    intro deeper depth
    induction depth with
    | zero => rfl
    | succ depth ih =>
      funext name
      rw [lookUp, lookUp, ih]
      rfl
  funext name
  rw [classInfo, classInfo, hlookUp]

theorem classInfo?_withReturns : { t with returnExtensions := r }.classInfo? = t.classInfo? := by
  funext name
  rw [classInfo?, classInfo?, classInfo_withReturns]
  rfl

theorem callType_withReturns (name : String) :
    { t with returnExtensions := r }.callType name = t.callType name := rfl

variable {t r} (h : ∀ name, r.get? name = t.returnExtensions.get? name)

include h

theorem returnExtensionsFor_withReturns :
    { t with returnExtensions := r }.returnExtensionsFor = t.returnExtensionsFor := by
  have hempty : r.entries.isEmpty = t.returnExtensions.entries.isEmpty := by
    rw [Bool.eq_iff_iff, NameMap.isEmpty_entries_iff, NameMap.isEmpty_entries_iff]
    simp only [h]
  funext name
  simp only [returnExtensionsFor, classInfo?_withReturns, h, hempty]

theorem methodAnswer_withReturns (e : Env) (call : Expr) (receiver : PhpType) (name : String) :
    { t with returnExtensions := r }.methodAnswer e call receiver name
      = t.methodAnswer e call receiver name := by
  simp only [methodAnswer, classInfo?_withReturns, returnExtensionsFor_withReturns h]

end SymbolTable

/-- A script looks up symbols only, so it does not see the extensions. -/
theorem ReturnAnswer.run_withReturns (part : CallPart → Analysis PhpType) (answer : ReturnAnswer) :
    answer.run { t with returnExtensions := r } part = answer.run t part := by
  induction answer with
  | known type => rfl
  | failed cause => rfl
  | hasClass className next ih => exact bind_congr ih
  | consult className next ih =>
    rw [run, run, SymbolTable.classInfo_withReturns]
    exact bind_congr ih
  | consultFunction name next ih => exact bind_congr ih
  | infer asked next ih => exact bind_congr ih

mutual

/-- **Only the lists matter**, not the order in which the table keeps them; by induction on the
    expression. -/
theorem Expr.infer_withReturns {t : SymbolTable} {r : NameMap (List ReturnExtension)}
    (h : ∀ name, r.get? name = t.returnExtensions.get? name) (e : Env) (x : Expr) :
    x.infer { t with returnExtensions := r } e = x.infer t e := by
  cases x with
  | unary _ op operand =>
    cases op with
    | not => rfl
    | minus | plus => exact operand.infer_withReturns h e
  | binary span op left right =>
    simp only [Expr.infer, left.infer_withReturns h e, right.infer_withReturns h e]
  | compoundAssign span op target value =>
    simp only [Expr.infer, target.infer_withReturns h e, value.infer_withReturns h e]
  | classConstant span className name =>
    simp only [Expr.infer, SymbolTable.classConstantType?, SymbolTable.classInfo?_withReturns]
  | methodCall span receiver method args =>
    simp only [Expr.infer, receiver.infer_withReturns h e, SymbolTable.methodAnswer_withReturns h,
      ReturnAnswer.run_withReturns, inferArg_withReturns h e args]
  | property span receiver name =>
    simp only [Expr.infer, receiver.infer_withReturns h e, SymbolTable.propertyType,
      SymbolTable.classInfo?_withReturns]
  | call span function args => simp only [Expr.infer, SymbolTable.callType_withReturns]
  | _ => rfl

theorem inferArg_withReturns {t : SymbolTable} {r : NameMap (List ReturnExtension)}
    (h : ∀ name, r.get? name = t.returnExtensions.get? name) (e : Env) (args : List Arg)
    (index : Nat) :
    inferArg { t with returnExtensions := r } e args index = inferArg t e args index := by
  match args, index with
  | [], _ => rfl
  | ⟨value, _, _⟩ :: _, 0 => exact value.infer_withReturns h e
  | ⟨_, _, _⟩ :: rest, index + 1 => exact inferArg_withReturns h e rest index

end

end Rearranged

/-! ### Calls -/

/-- A call that is not narrowed gets the type that is answered for its receiver. -/
theorem Expr.infer_methodCall_eq (t : SymbolTable) (e : Env) (span : Span) (receiver : Expr)
    (name : String) (args : List Arg)
    (hn : e.narrowing? (.methodCall span receiver (.literal name) args) = none) :
    (Expr.methodCall span receiver (.literal name) args).infer t e
      = receiver.infer t e >>= fun type =>
          t.methodAnswer e (.methodCall span receiver (.literal name) args) type name >>=
            ReturnAnswer.run t (CallPart.type t e receiver args) := by
  rw [Expr.infer, hn]
  rfl

theorem Expr.infer_variable {t : SymbolTable} {e : Env} {span : Span} {name : String}
    {type : PhpType} (hbound : e.bound? name = some type)
    (hn : e.narrowing? (.variable span (.literal name)) = none) :
    (Expr.variable span (.literal name)).infer t e = pure type := by
  simp only [Expr.infer, Env.narrowedOr, hn, hbound, Option.getD_none, Option.getD_some]

theorem PhpType.onReceiver_object (declared : PhpType) (className : String) (nullable : Bool) :
    declared.onReceiver (.object className nullable)
      = if declared.isStatic then .object className (declared.nullable || nullable)
        else declared := by
  unfold PhpType.onReceiver
  split
  · cases declared.nullable <;> rfl
  · rfl

namespace SymbolTable

variable {t : SymbolTable} {p : Program} {C : String} {c : ClassInfo} {m m' : Memory}

/-- The call of a method on a variable of a class that was found, if neither is narrowed. -/
theorem runFrom_infer_call (hm : AtRest t m) (h : (t.classInfo C).runFrom m = (.ok c, m'))
    {name : String} {f : MethodInfo} (hf : c.method? name = some f) {e : Env} {span inner : Span}
    {written : String} {nullable : Bool} {args : List Arg}
    (hbound : e.bound? written = some (.object C nullable))
    (hreceiver : e.narrowing? (.variable inner (.literal written)) = none)
    (hcall : e.narrowing?
      (.methodCall span (.variable inner (.literal written)) (.literal name) args) = none) :
    let receiver := Expr.variable inner (.literal written)
    let call := Expr.methodCall span receiver (.literal name) args
    (call.infer t e).runFrom m
      = (ReturnAnswer.run t (CallPart.type t e receiver args) ((((C :: c.ancestors).flatMap fun k =>
            (t.returnExtensions.get? k).getD []).find? (·.supports f)).elim
          (.known (if f.result.isStatic then .object C (f.result.nullable || nullable)
            else f.result)) fun x => x.answer f call e)).runFrom m' := by
  intro receiver call
  have hclass : (PhpType.object C nullable).className? = some C := rfl
  have hanswer := runFrom_methodAnswer hm h hf e call hclass
  rw [Expr.infer_methodCall_eq _ _ _ _ _ _ hcall, Expr.infer_variable hbound hreceiver, pure_bind,
    runFrom_bind_ok hanswer, f.result.onReceiver_object]

theorem source_register (t : SymbolTable) (xs : List ReturnExtension) :
    (t.register xs).source = t.source := by
  rw [register_eq]

theorem flatMap_register (ht : t.returnExtensions = .empty) (xs : List ReturnExtension)
    (names : List String) :
    (names.flatMap fun k => ((t.register xs).returnExtensions.get? k).getD [])
      = names.flatMap (extensionsOf xs) :=
  List.flatMap_congr fun k _ => getD_register ht xs k

/-- Extensions of different classes can be registered in any order. -/
theorem infer_register_congr (ht : t.returnExtensions = .empty) {xs ys : List ReturnExtension}
    (h : extensionsOf ys = extensionsOf xs) (e : Env) (x : Expr) :
    x.infer (t.register ys) e = x.infer (t.register xs) e := by
  have hget : ∀ k, (t.register ys).returnExtensions.get? k
      = (t.register xs).returnExtensions.get? k := by
    intro k
    rw [get?_register ht, get?_register ht, h]
  rw [register_eq t ys, register_eq t xs]
  exact x.infer_withReturns
    (t := { t with returnExtensions := (t.register xs).returnExtensions }) hget e

/-- **The nearest extension answers.**  Of the extensions registered on a table, those for a class
    that is found are the ones for the class itself and for its ancestors, each as often as it was
    registered: those for nearer classes first, and those for one class in the order of their
    registration.  The call of a method on a variable of this class, if neither is narrowed, has
    the type that the script of the first of them supporting the method gives, or fails as that
    one does, and what is remembered is the class and what this script looked up.  Without one it
    has the declared type, and the class of the variable for a declared `static`, nullable if the
    declaration or the variable is.  In which order extensions of different classes were
    registered does not show. -/
theorem nearest_extension_answers (hp : t.source = p.source)
    (ht : t.returnExtensions = .empty) (xs : List ReturnExtension)
    (hm : (t.register xs).Arises m)
    (hc : ((t.register xs).classInfo C).runFrom m = (.ok c, m')) :
    let listed := (C :: c.ancestors).flatMap (extensionsOf xs)
    p.source.ParentChain C c.ancestors ∧
      (((t.register xs).returnExtensionsFor C).runFrom m).1 = .ok listed ∧
      listed.Perm (xs.filter fun x => x.className ∈ C :: c.ancestors) ∧
      ∀ {name : String} {f : MethodInfo}, c.method? name = some f →
        ∀ (e : Env) (span inner : Span) (written : String) (nullable : Bool) (args : List Arg),
          let receiver := Expr.variable inner (.literal written)
          let call := Expr.methodCall span receiver (.literal name) args
          e.bound? written = some (.object C nullable) →
          e.narrowing? receiver = none → e.narrowing? call = none →
          (∀ x, listed.find? (·.supports f) = some x →
            (call.infer (t.register xs) e).runFrom m
              = ((x.answer f call e).run (t.register xs)
                  (CallPart.type (t.register xs) e receiver args)).runFrom m') ∧
          (listed.find? (·.supports f) = none →
            (call.infer (t.register xs) e).runFrom m
              = (.ok (if f.result.isStatic then .object C (f.result.nullable || nullable)
                  else f.result), m')) ∧
          ∀ ys : List ReturnExtension, extensionsOf ys = extensionsOf xs →
            call.infer (t.register ys) e = call.infer (t.register xs) e := by
  have hsource : (t.register xs).source = p.source := (t.source_register xs).trans hp
  have hassembles : (t.register xs).Assembles C c :=
    assembles_of_ok hm.atRest.faithful (congrArg Prod.fst hc)
  have hchain : (t.register xs).source.ParentChain C c.ancestors := hassembles.parentChain hsource
  have hlisted := runFrom_returnExtensionsFor hc
  rw [flatMap_register ht] at hlisted
  refine ⟨hsource ▸ hchain, congrArg Prod.fst hlisted,
    flatMap_extensionsOf_perm xs (hchain.nodup hassembles.grounded), ?_⟩
  intro name f hf e span inner written nullable args receiver call hbound hreceiver hcall
  have hinfer := runFrom_infer_call hm.atRest hc hf hbound hreceiver hcall
  rw [flatMap_register ht] at hinfer
  refine ⟨?_, ?_, ?_⟩
  · intro x hx
    rw [hx] at hinfer
    exact hinfer
  · intro hnone
    rw [hnone] at hinfer
    exact hinfer
  · intro ys hys
    exact infer_register_congr ht hys e call

end SymbolTable

/-! ### The kennel -/

namespace Kennel

/-- Says of all calls of one method that they give one type. -/
def always (className method : String) (type : PhpType) : ReturnExtension where
  className := className
  supports f := decide (f.name = method)
  answer _ _ _ := .known type

def forAnimals : ReturnExtension := always "Animal" "age" (.of .integer false)

/-- Says of the age of a dog that it is a float, unless snakes can be looked up. -/
def forDogs : ReturnExtension where
  className := "Dog"
  supports f := decide (f.name = "age")
  answer _ _ _ := .consult "Snake" fun
    | .ok _ => .known .null
    | .error _ => .known (.of .float false)

def forNames : ReturnExtension := always "Dog" "name" (.of .string false)

def forSnakes : ReturnExtension := always "Snake" "age" .null

theorem extensionsOf_dogsFirst :
    extensionsOf [forNames, forDogs, forAnimals, forSnakes]
      = extensionsOf [forAnimals, forSnakes, forNames, forDogs] := by
  funext name
  by_cases hdog : "Dog" = name
  · subst hdog
    rfl
  · simp [extensionsOf, List.filter_cons, forNames, forDogs, always, hdog]

/-- That of a dog comes first, though it was registered last, and goes on though its look-up of
    the snake fails. -/
theorem dog_age_answered :
    let xs := [forAnimals, forSnakes, forNames, forDogs]
    let t := cloneable.register xs
    let age := Expr.methodCall {} (.variable {} (.literal "dog")) (.literal "age") []
    cloneable.source = kennel.source ∧ t.Arises {} ∧
      ((t.returnExtensionsFor "Dog").runFrom {}).1 = .ok [forNames, forDogs, forAnimals] ∧
      ((age.infer t yard).runFrom {}).1 = .ok (.of .float false) ∧
      ((age.infer (cloneable.register [forNames, forDogs, forAnimals, forSnakes]) yard).runFrom
        {}).1 = .ok (.of .float false) := by
  intro xs t age
  have hdog : (t.classInfo "Dog").runFrom {} = (.ok _, _) := rfl
  obtain ⟨-, hlisted, -, hcalls⟩ :=
    SymbolTable.nearest_extension_answers (t := cloneable) rfl rfl xs .start hdog
  obtain ⟨hfirst, -, horder⟩ := @hcalls "age" _ rfl yard {} {} "dog" false [] rfl rfl rfl
  have hage := hfirst forDogs rfl
  have hagain := horder [forNames, forDogs, forAnimals, forSnakes] extensionsOf_dogsFirst
  have hfloat : ((age.infer t yard).runFrom {}).1 = .ok (.of .float false) := by
    rw [hage]
    rfl
  refine ⟨rfl, .start, hlisted, hfloat, ?_⟩
  rw [hagain]
  exact hfloat

end Kennel

end PhpCheck
