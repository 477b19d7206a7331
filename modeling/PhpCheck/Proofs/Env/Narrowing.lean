/-
  PhpCheck/Proofs/Env/Narrowing.lean
  ==================================
  **Narrowing an access path** — which types change when one path is narrowed, and
  which do not.

  Narrowed types are recorded under source forms, and inference asks for one at
  each receiver on the way down to a variable.  Paths have the same source form
  only if they are equal up to places, so a narrowed path is met just where it is
  a stem of the path that is looked at (`Expr.IsPath.narrowing?_narrow`).  What
  inference looks at in a path are its stems and its root (`Expr.IsPath.infer_congr`);
  arguments it does not look at, unless an extension asks for them.
-/
import PhpCheck.Proofs.Analysis.Frame
import PhpCheck.Proofs.Analysis.Order
import PhpCheck.Proofs.Env.Branch
import PhpCheck.Proofs.Source.Key
import PhpCheck.Proofs.Source.Path

namespace PhpCheck

namespace Expr.IsPath

variable {t : SymbolTable} {e e' : Env} {x y : Expr}

/-! ### Keys -/

theorem floats_eq_empty (h : x.IsPath) : x.floats = ∅ := by
  refine Set.subset_empty_iff.mp (floats_subset (h.everywhere ?_))
  rintro y hy span value rfl
  cases hy

theorem text_eq_iff_bare_eq (hx : x.IsPath) (hy : y.IsPath) :
    x.text = y.text ↔ x.bare = y.bare := by
  constructor
  · refine bare_eq_of_text_eq (hx.everywhere fun _ => regular) (hy.everywhere fun _ => regular)
      (hx.everywhere fun _ => distinct) (hy.everywhere fun _ => distinct) ?_
    rw [hx.floats_eq_empty, hy.floats_eq_empty, Set.union_empty]
    exact Set.injOn_empty _
  · intro h
    rw [← x.text_bare, h, y.text_bare]

/-- Where one path is narrowed, no other path is. -/
theorem narrowing?_narrow (hx : x.IsPath) (hy : y.IsPath) (hvariable : x.variableName? = none)
    (hne : y.bare ≠ x.bare) (className : String) :
    (e.narrow x className).narrowing? y = e.narrowing? y := by
  rw [e.narrowing?_narrow hvariable, if_neg]
  exact fun htext => hne ((hy.text_eq_iff_bare_eq hx).mp htext)

/-! ### Inference -/

/-- The type of a path rests on its root and on the narrowed types of its stems.  Other variables
    may have changed, unlike in `Expr.infer_congr`. -/
theorem infer_congr (ht : t.returnExtensions = .empty) (h : x.IsPath)
    (hroot : ∀ name ∈ x.root?, e'.bound? name = e.bound? name)
    (hstems : ∀ y ∈ x.stems, e'.narrowing? y = e.narrowing? y) : x.infer t e' = x.infer t e := by
  induction h with
  | «variable» _ =>
    have hself := hstems _ (self_mem_stems _)
    have hbound := hroot _ rfl
    simp only [Expr.infer, hbound, Env.narrowedOr_congr hself]
  | property _ _ ih =>
    have hself := hstems _ (self_mem_stems _)
    have hreceiver := ih hroot fun y hy => hstems y (List.mem_cons_of_mem _ hy)
    simp only [Expr.infer, hself, hreceiver]
  | methodCall _ _ _ _ ih _ =>
    have hself := hstems _ (self_mem_stems _)
    have hreceiver := ih hroot fun y hy => hstems y (List.mem_cons_of_mem _ hy)
    simp only [Expr.infer_methodCall ht, hself, hreceiver]

/-- A narrowed path is not looked into. -/
theorem infer_of_narrowing? (h : x.IsPath) (hvariable : x.variableName? = none) {type : PhpType}
    (hn : e.narrowing? x = some type) : x.infer t e = pure type := by
  cases h with
  | «variable» => cases hvariable
  | property | methodCall => simp only [Expr.infer, hn]

/-- **What it means to narrow a path.**  A path that is not a plain variable then has the class it
    was narrowed to, without any look-up, so also where its receiver has no type; and the type of
    a path of which it is no stem, up to places, stays what it was, also if it was a failure.  When
    a plain variable is narrowed, this holds of the paths that do not start from it. -/
theorem infer_narrow (ht : t.returnExtensions = .empty) (hx : x.IsPath) (e : Env)
    (className : String) :
    (x.variableName? = none →
      x.infer t (e.narrow x className) = pure (.object className) ∧
      ∀ y : Expr, y.IsPath → (∀ stem ∈ y.stems, stem.bare ≠ x.bare) →
        y.infer t (e.narrow x className) = y.infer t e) ∧
    ∀ name, x.variableName? = some name →
      ∀ y : Expr, y.IsPath → y.root? ≠ some name →
        y.infer t (e.narrow x className) = y.infer t e := by
  constructor
  · intro hvariable
    have hsame : ∀ name, (e.narrow x className).bound? name = e.bound? name := by
      intro name
      rw [Env.narrow, hvariable]
      rfl
    constructor
    · refine hx.infer_of_narrowing? hvariable ?_
      rw [e.narrowing?_narrow hvariable, if_pos rfl]
    · intro y hy hne
      refine hy.infer_congr ht (fun name _ => hsame name) fun stem hstem => ?_
      exact hx.narrowing?_narrow (hy.of_mem_stems hstem) hvariable (hne stem hstem) className
  · intro name hvariable y hy hroot
    have hassign : e.narrow x className = e.assign name (.object className) := by
      rw [Env.narrow, hvariable]
    rw [hassign]
    refine hy.infer_congr ht (fun other hother => ?_) fun _ _ => rfl
    rw [e.bound?_assign, if_neg]
    rintro rfl
    exact hroot hother

end Expr.IsPath

/-! ### The kennel -/

namespace Kennel

open Fork (propertyOf)

def animal (name : String) : Expr := .variable {} (.literal name)

/-- The prey of the snake is brought to an animal. -/
def preyBroughtTo (name : String) : Expr :=
  .methodCall {} (propertyOf "snake" "prey") (.literal "bring") [{ value := animal name }]

theorem preyBroughtTo_isPath : (preyBroughtTo "dog").IsPath ∧ (preyBroughtTo "snake").IsPath := by
  have hpath : ∀ name, SourceReader.IsName name → (preyBroughtTo name).IsPath := by
    intro name hname
    refine .methodCall (.property (.variable (by decide)) (by decide)) (by decide) ?_ ?_
    · intro arg harg
      rw [List.mem_singleton.mp harg]
      exact ⟨rfl, rfl⟩
    · intro arg harg
      rw [List.mem_singleton.mp harg]
      exact .variable hname
  exact ⟨hpath _ (by decide), hpath _ (by decide)⟩

/-- Nothing is known of a snake, but what it brings to the dog is an animal all the same; what it
    brings to itself still fails, and a snake taken for a dog leaves the dog alone. -/
theorem prey_narrowed :
    let narrowed := yard.narrow (preyBroughtTo "dog") "Animal"
    cloneable.returnExtensions = .empty ∧ (preyBroughtTo "dog").IsPath ∧
      (((propertyOf "snake" "prey").infer cloneable narrowed).runFrom {}).1
        = .error (.circularHierarchy "Snake") ∧
      (((preyBroughtTo "dog").infer cloneable narrowed).runFrom {}).1 = .ok (.object "Animal") ∧
      (((preyBroughtTo "snake").infer cloneable narrowed).runFrom {}).1
        = .error (.circularHierarchy "Snake") ∧
      (animal "dog").infer cloneable (yard.narrow (animal "snake") "Dog")
        = (animal "dog").infer cloneable yard := by
  have hnone : cloneable.returnExtensions = .empty := rfl
  obtain ⟨hdog, hsnake⟩ := preyBroughtTo_isPath
  obtain ⟨hself, hframe⟩ := (hdog.infer_narrow hnone yard "Animal").1 rfl
  have htexts : ∀ stem ∈ (preyBroughtTo "snake").stems, stem.text ≠ (preyBroughtTo "dog").text := by
    decide
  have hother := hframe (preyBroughtTo "snake") hsnake fun stem hstem hbare =>
    htexts stem hstem (by rw [← stem.text_bare, hbare, Expr.text_bare])
  have hanimal : ∀ {name}, SourceReader.IsName name → (animal name).IsPath := .variable
  have hleft := ((hanimal (by decide)).infer_narrow hnone yard "Dog").2 "snake" rfl
    (animal "dog") (hanimal (by decide)) (by decide)
  refine ⟨hnone, hdog, rfl, ?_, ?_, hleft⟩
  · rw [hself]
    rfl
  · rw [hother]
    rfl

end Kennel

end PhpCheck
