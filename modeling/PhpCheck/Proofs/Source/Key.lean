/-
  PhpCheck/Proofs/Source/Key.lean
  ===============================
  **Source forms as keys** — when two expressions share a source form, and with it
  what is recorded under it.

  The source form determines the expression up to places if its names and numbers
  are regular and the names of classes and functions distinct
  (`Expr.text_eq_iff`).  Then a narrowing is seen by the equal expressions only.

  Without distinct names it does not: what is written in place of a name has no
  parentheses, so arguments behind a property make a call of a method
  (`Expr.text_called`), and arguments behind an instantiation belong to its class
  (`Expr.text_call_new`).  Each call of a function whose name is not distinct is
  written like another expression (`Expr.exists_twin`), and so is each call of a
  static method by its name (`Expr.exists_twin_static`).
-/
import Mathlib.Data.Set.Function
import PhpCheck.Env.Basic
import PhpCheck.Proofs.Source.Recovery

namespace PhpCheck

open SourceReader (IsName Legible TellsFloat exists_read read)

namespace Expr

/-- The values of the floats in an expression. -/
def floats (x : Expr) : Set Binary64 := {value | ∃ s, (Expr.float s value).Within x}

theorem floats_subset {x : Expr} {values : Set Binary64}
    (h : x.Everywhere fun y => ∀ s value, y = .float s value → value ∈ values) :
    x.floats ⊆ values :=
  fun value ⟨s, hvalue⟩ => h _ hvalue s value rfl

/-! ### Distinct expressions -/

/-- Floats whose texts differ can be told by a function on texts. -/
theorem exists_tellsFloat {values : Set Binary64} (h : values.InjOn Binary64.text) :
    ∃ float? : List Char → Option Binary64,
      ∀ value ∈ values, float? value.text.toList = some value := by
  have : Nonempty Binary64 := ⟨.finite false 0 0⟩
  have hinverse := h.leftInvOn_invFunOn
  refine ⟨fun cs => some (Function.invFunOn Binary64.text values (String.ofList cs)), ?_⟩
  intro value hvalue
  dsimp only
  rw [String.ofList_toList, hinverse hvalue]

theorem everywhere_legible {x : Expr} (hx : x.Everywhere Regular) (hd : x.Everywhere Distinct)
    {float? : List Char → Option Binary64}
    (hfloat : ∀ value ∈ x.floats, float? value.text.toList = some value) :
    x.Everywhere (Legible float?) := by
  intro y hy
  refine ⟨hx y hy, hd y hy, ?_⟩
  cases y with
  | float s value => exact hfloat value ⟨s, hy⟩
  | _ => trivial

variable {a b : Expr}

theorem bare_eq_of_text_eq (ha : a.Everywhere Regular) (hb : b.Everywhere Regular)
    (hda : a.Everywhere Distinct) (hdb : b.Everywhere Distinct)
    (hfloats : (a.floats ∪ b.floats).InjOn Binary64.text) (h : a.text = b.text) :
    a.bare = b.bare := by
  obtain ⟨float?, hfloat⟩ := exists_tellsFloat hfloats
  obtain ⟨least, hreadA⟩ := exists_read
    (everywhere_legible ha hda fun value hvalue => hfloat value (.inl hvalue))
  obtain ⟨least', hreadB⟩ := exists_read
    (everywhere_legible hb hdb fun value hvalue => hfloat value (.inr hvalue))
  have hboth := hreadA (max least least') (by omega)
  rw [h, hreadB (max least least') (by omega)] at hboth
  simpa using hboth.symm

end Expr

/-- **Source forms are keys of expressions.**  Two expressions whose names are names and whose
    numbers are not negative have one source form just if they are equal up to places, provided
    that the texts of their floats differ and that no computed name of a class or function looks
    like something else.  So what is narrowed of one of them, a plain variable apart, is seen in
    the other just if they are equal. -/
theorem Expr.text_eq_iff {a b : Expr} (ha : a.Everywhere Regular) (hb : b.Everywhere Regular)
    (hda : a.Everywhere Distinct) (hdb : b.Everywhere Distinct)
    (hfloats : (a.floats ∪ b.floats).InjOn Binary64.text) :
    (a.text = b.text ↔ a.bare = b.bare) ∧
      ∀ (e : Env) (className : String), a.variableName? = none →
        (a.bare = b.bare → (e.narrow a className).narrowing? b = some (.object className)) ∧
        (a.bare ≠ b.bare → (e.narrow a className).narrowing? b = e.narrowing? b) := by
  have htext : a.text = b.text ↔ a.bare = b.bare := by
    refine ⟨bare_eq_of_text_eq ha hb hda hdb hfloats, fun h => ?_⟩
    rw [← a.text_bare, h, b.text_bare]
  refine ⟨htext, fun e className hvariable => ⟨fun h => ?_, fun h => ?_⟩⟩
  · rw [e.narrowing?_narrow hvariable, if_pos (htext.mpr h).symm]
  · rw [e.narrowing?_narrow hvariable, if_neg fun hsame => h (htext.mp hsame.symm)]

/-! ### A static method and the function in a static property -/

namespace Parlour

/-- An argument of both calls. -/
def degrees : Expr := .float {} (.finite false 3 (-1))

/-- A static method is called. -/
def heat : Expr :=
  .staticCall {} (.literal "Parlour") (.literal "heat") [{ value := degrees }]

/-- A static property with its function. -/
def heater : Expr := .staticProperty {} (.literal "Parlour") (.literal "heat")

/-- The function is called. -/
def heatBy : Expr := .call {} (.computed heater) [{ value := degrees }]

variable {P : Expr → Prop}

theorem heat_everywhere (h : P heat) (hd : P degrees) : heat.Everywhere P :=
  .above h rfl (.leaf hd rfl)

theorem heatBy_everywhere (h : P heatBy) (hp : P heater) (hd : P degrees) : heatBy.Everywhere P :=
  .intro h (List.forall_mem_cons.mpr
    ⟨.leaf hp rfl, List.forall_mem_cons.mpr ⟨.leaf hd rfl, List.forall_mem_nil _⟩⟩)

theorem isName_parlour : IsName "Parlour" := by decide

theorem isName_heat : IsName "heat" := by decide

theorem floats_subset_degrees :
    heat.floats ∪ heatBy.floats ⊆ ({.finite false 3 (-1)} : Set Binary64) := by
  have hone : ∀ s value, degrees = .float s value →
      value ∈ ({.finite false 3 (-1)} : Set Binary64) := by
    rintro s value ⟨⟩
    rfl
  exact Set.union_subset (Expr.floats_subset (heat_everywhere nofun hone))
    (Expr.floats_subset (heatBy_everywhere nofun nofun hone))

/-- Neither call is seen where the other one is narrowed. -/
theorem told_apart :
    heat.text ≠ heatBy.text ∧ ∀ (e : Env) (className : String),
      (e.narrow heat className).narrowing? heatBy = e.narrowing? heatBy := by
  have hdegrees : degrees.Regular := ⟨3, -1, rfl⟩
  have hfloats : (heat.floats ∪ heatBy.floats).InjOn Binary64.text :=
    (Set.injOn_singleton _ _).mono floats_subset_degrees
  have hne : heat.bare ≠ heatBy.bare := by
    intro h
    cases h
  have hkey := Expr.text_eq_iff (heat_everywhere ⟨isName_parlour, isName_heat⟩ hdegrees)
    (heatBy_everywhere trivial ⟨isName_parlour, isName_heat⟩ hdegrees)
    (heat_everywhere trivial trivial) (heatBy_everywhere trivial trivial trivial) hfloats
  exact ⟨fun h => hne (hkey.1.mp h), fun e className => (hkey.2 e className rfl).2 hne⟩

end Parlour

/-! ### What is not told apart -/

namespace Expr

variable (s s' : Span) (args more : List Arg)

/-- Arguments behind a property, a class constant or a constant. -/
theorem text_called (x : Expr) :
    (x.called args).text = (Expr.call s (.computed x) args).text := by
  cases x <;>
    simp [called, text, Name.text, Name.braceText, asOperand, isOperator, String.append_assoc]

/-- Arguments behind an instantiation. -/
theorem text_call_new (name : Name) :
    (Expr.call s (.computed (.new s' name args)) more).text
      = (Expr.new s (.computed (.call s' name args)) more).text := by
  simp [text, Name.text, asOperand, isOperator, String.append_assoc]

/-- A static method behind an instantiation. -/
theorem text_staticCall_new (name : Name) (method : String) :
    (Expr.staticCall s (.computed (.new s' name args)) (.literal method) more).text
      = (Expr.new s
          (.computed (.classConstant s' (.computed (.call s' name args)) method)) more).text := by
  simp [text, Name.text, Name.braceText, asOperand, isOperator, String.append_assoc]

/-- A call of a function whose name is not distinct is written like something else. -/
theorem exists_twin {function : Name} (h : ¬ function.DistinctFunction) :
    ∃ twin : Expr, twin.text = (Expr.call s function args).text ∧
      twin.bare ≠ (Expr.call s function args).bare := by
  cases function with
  | literal => exact absurd trivial h
  | computed value =>
    cases value with
    | constant | property | classConstant => exact ⟨_, text_called s args _, nofun⟩
    | new _ name inner => exact ⟨_, (text_call_new s s inner args name).symm, nofun⟩
    | _ => exact absurd trivial h

/-- So is a call of a static method, named literally, of a class whose name is not distinct. -/
theorem exists_twin_static {className : Name} (h : ¬ className.DistinctClass) (method : String) :
    ∃ twin : Expr, twin.text = (Expr.staticCall s className (.literal method) args).text ∧
      twin.bare ≠ (Expr.staticCall s className (.literal method) args).bare := by
  cases className with
  | literal => exact absurd trivial h
  | computed value =>
    cases value with
    | constant _ name => exact ⟨.staticCall s (.literal name) (.literal method) args, rfl, nofun⟩
    | new _ name inner =>
      exact ⟨_, (text_staticCall_new s s inner args name method).symm, nofun⟩
    | _ => exact absurd trivial h

end Expr

/-! ### A method and the function in a property -/

namespace Handler

/-- The object of the method at work, and its property. -/
def this : Expr := .variable {} (.literal "this")

def property : Expr := .property {} this (.literal "run")

/-- A method is called. -/
def run : Expr := .methodCall {} this (.literal "run") []

/-- The function is called that a property of the same name holds. -/
def runBy : Expr := .call {} (.computed property) []

variable {P : Expr → Prop}

theorem run_everywhere (h : P run) (ht : P this) : run.Everywhere P :=
  .above h rfl (.leaf ht rfl)

theorem runBy_everywhere (h : P runBy) (hp : P property) (ht : P this) : runBy.Everywhere P :=
  .above h rfl (.above hp rfl (.leaf ht rfl))

/-- Source forms do not determine regular expressions. -/
theorem not_told_apart :
    ¬ ∀ a b : Expr, a.Everywhere Expr.Regular → b.Everywhere Expr.Regular →
      (a.floats ∪ b.floats).InjOn Binary64.text → (a.text = b.text ↔ a.bare = b.bare) := by
  have hthis : IsName "this" := by decide
  have hname : IsName "run" := by decide
  have hfloats : (run.floats ∪ runBy.floats).InjOn Binary64.text := by
    have hsubset : run.floats ∪ runBy.floats ⊆ ∅ :=
      Set.union_subset (Expr.floats_subset (run_everywhere nofun nofun))
        (Expr.floats_subset (runBy_everywhere nofun nofun nofun))
    exact (Set.injOn_empty _).mono hsubset
  intro h
  have hbare := (h run runBy (run_everywhere hname hthis) (runBy_everywhere trivial hname hthis)
    hfloats).mp (Expr.text_called {} [] property)
  cases hbare

end Handler

end PhpCheck
