/-
  PhpCheck/Proofs/Classes/Subclass.lean
  =====================================
  **Subclasses** — being below another class is a strict order, and it is what
  the declarations say.

  A class is below its ancestors and its interfaces.  Both lists are exact
  (`Assembles.parentChain`, `Assembles.mem_interfaces`), so the order is one of
  paths in the graph of the declarations: it is irreflexive since no class that
  is built is above itself, and transitive since the chain of an ancestor ends
  the chain of the class and an interface has no ancestors.

  Visibility follows the order: what a class may use as protected, the classes
  below it may use.
-/
import PhpCheck.Inference.Access
import PhpCheck.Proofs.Hierarchy.Lineage
import PhpCheck.Proofs.LookUp.Success

namespace PhpCheck

open Analysis

namespace SymbolTable

variable {t : SymbolTable} {p : Program} {m : Memory} {A B C : String} {a b : ClassInfo}

/-! ### The order -/

namespace Assembles

/-- A class is below its ancestors and below what one of its chain implements. -/
theorem isSubclassOf_iff (hp : t.source = p.source) (hl : t.source.Layered)
    (h : t.Assembles A a) :
    a.isSubclassOf B = true ↔
      B ∈ a.ancestors ∨ ∃ k ∈ A :: a.ancestors, t.source.Implements k B := by
  rw [← h.mem_interfaces hp hl]
  simp [ClassInfo.isSubclassOf]

theorem isSubclassOf_eq (h : t.Assembles A a) (h' : t.Assembles A b) :
    a.isSubclassOf B = b.isSubclassOf B := by
  have hsame := h.lineage_unique h'
  simp only [ClassInfo.lineage, Prod.mk.injEq] at hsame
  rw [ClassInfo.isSubclassOf, ClassInfo.isSubclassOf, hsame.2.1, hsame.2.2]

theorem reaches_of_mem_chain (hp : t.source = p.source) (h : t.Assembles A a)
    (hk : B ∈ A :: a.ancestors) : t.source.Reaches A B := by
  rcases List.mem_cons.mp hk with rfl | hk
  · exact .refl
  · exact ((h.parentChain hp).transGen hk).to_reflTransGen

theorem isSubclassOf_irrefl (hp : t.source = p.source) (hl : t.source.Layered)
    (h : t.Assembles A a) : a.isSubclassOf A = false := by
  have hacyclic := (h.grounded A .refl).2
  rw [← Bool.not_eq_true, h.isSubclassOf_iff hp hl]
  rintro (hmem | ⟨k, hk, hi⟩)
  · exact hacyclic ((h.parentChain hp).transGen hmem)
  · exact hacyclic (Relation.TransGen.trans_right (h.reaches_of_mem_chain hp hk) hi.transGen)

theorem isSubclassOf_trans (hp : t.source = p.source) (hl : t.source.Layered)
    (h : t.Assembles A a) (h' : t.Assembles B b) (hab : a.isSubclassOf B = true)
    (hbc : b.isSubclassOf C = true) : a.isSubclassOf C = true := by
  rw [h.isSubclassOf_iff hp hl] at hab ⊢
  rw [h'.isSubclassOf_iff hp hl] at hbc
  rcases hab with hmem | ⟨k, hk, hi⟩
  · -- The chain of `B` ends that of `A`.
    have hsub := ((h.parentChain hp).suffix hmem (h'.parentChain hp)).subset
    rcases hbc with hc | ⟨j, hj, hi⟩
    · exact .inl (hsub (List.mem_cons_of_mem _ hc))
    · exact .inr ⟨j, List.mem_cons_of_mem _ (hsub hj), hi⟩
  · -- `B` is an interface, so it is below interfaces only.
    rw [h'.ancestors_eq_nil hp hl hi] at hbc
    rcases hbc with hc | ⟨j, hj, hi'⟩
    · cases hc
    · rw [List.mem_singleton.mp hj] at hi'
      exact .inr ⟨k, hk, hi.trans hi'⟩

end Assembles

/-! ### Use of members -/

/-- Outside of bound closures a protected member can be used in its class and below it. -/
theorem canUse_protected_iff {e : Env} {member : Membership} (hv : member.visibility = .family)
    (hb : e.inBoundClosure = false) (hc : e.className = some A) (m : Memory) :
    ((t.canUse e member).runFrom m).1 = .ok true ↔
      A = member.declaringClass ∨ ∃ a, ((t.classInfo A).runFrom m).1 = .ok a ∧
        a.isSubclassOf member.declaringClass = true := by
  unfold canUse
  rw [hb, hc, hv]
  by_cases hsame : A = member.declaringClass
  · simp [hsame]
  · rcases hr : (t.classInfo A).runFrom m with ⟨cause | a, m'⟩
    · simp [hsame, runFrom_bind, hr, -bind_pure_comp]
    · simp [hsame, runFrom_bind, hr, -bind_pure_comp]

/-- Inside a class, outside of bound closures, a member of another class cannot be used if it is
    private, or if it is protected and the class is not below the other. -/
theorem canUse_eq_false_iff {e : Env} (member : Membership) (hc : e.className = some A)
    (ha : ((t.classInfo A).runFrom m).1 = .ok a) :
    ((t.canUse e member).runFrom m).1 = .ok false ↔
      e.inBoundClosure = false ∧ member.declaringClass ≠ A ∧
        (member.visibility = .classOnly ∨
          member.visibility = .family ∧ a.isSubclassOf member.declaringClass = false) := by
  unfold canUse
  rw [hc]
  cases hb : e.inBoundClosure with
  | true => simp
  | false =>
    by_cases hown : A = member.declaringClass
    · subst hown
      cases member.visibility <;> simp
    · cases member.visibility with
      | anyone => simp
      | classOnly => simp [hown, Ne.symm hown]
      | family =>
        rcases hr : (t.classInfo A).runFrom m with ⟨cause | d, m'⟩
        · rw [hr] at ha
          cases ha
        · obtain rfl : d = a := by
            rw [hr] at ha
            exact Except.ok.inj ha
          simp [hown, Ne.symm hown, runFrom_bind, hr, -bind_pure_comp]

theorem canUse_protected_below (hp : t.source = p.source) (hl : t.source.Layered)
    {D : String} {d : ClassInfo} {e e' : Env} {member : Membership} {m m' : Memory}
    (hm : AtRest t m) (hm' : AtRest t m') (hd : t.Assembles D d) (hbelow : d.isSubclassOf A = true)
    (hc : e.className = some A) (hc' : e'.className = some D)
    (hb : e.inBoundClosure = true → e'.inBoundClosure = true) (hv : member.visibility = .family)
    (huse : ((t.canUse e member).runFrom m).1 = .ok true) :
    ((t.canUse e' member).runFrom m').1 = .ok true := by
  by_cases hb' : e'.inBoundClosure = true
  · unfold canUse
    simp [hb']
  · have hopen : e.inBoundClosure = false := by
      rw [← Bool.not_eq_true]
      exact fun h => hb' (hb h)
    rw [canUse_protected_iff hv hopen hc] at huse
    rw [canUse_protected_iff hv (by simpa using hb') hc']
    obtain ⟨d', hr, hd'⟩ := hd.found hm'
    refine .inr ⟨d', hr, ?_⟩
    rw [hd'.isSubclassOf_eq hd]
    rcases huse with rfl | ⟨a, ha, hsub⟩
    · exact hbelow
    · exact hd.isSubclassOf_trans hp hl (assembles_of_ok hm.faithful ha) hbelow hsub

/-- **Being below a class is a strict order**, and it is what the declarations say.  The ancestors
    of a class are the chain of its parents, its interfaces those that a class of this chain
    implements, each once; no class is below itself, and what is below a class is below all that
    the class is below.  So protected members can be used further down. -/
theorem isSubclassOf_strictOrder (hp : t.source = p.source) (hl : p.source.Layered) :
    (∀ {A : String} {a : ClassInfo}, t.Builds A a →
      p.source.ParentChain A a.ancestors ∧ (A :: a.ancestors).Nodup ∧ a.interfaces.Nodup ∧
      (∀ i, i ∈ a.interfaces ↔ ∃ k ∈ A :: a.ancestors, p.source.Implements k i) ∧
      a.isSubclassOf A = false) ∧
    (∀ {A B C : String} {a b : ClassInfo}, t.Builds A a → t.Builds B b →
      a.isSubclassOf B = true → b.isSubclassOf C = true → a.isSubclassOf C = true) ∧
    (∀ {A D : String} {d : ClassInfo} {e e' : Env} {member : Membership} {m m' : Memory},
      t.Reachable m → t.Reachable m' → t.Builds D d → d.isSubclassOf A = true →
      e.className = some A → e'.className = some D →
      (e.inBoundClosure = true → e'.inBoundClosure = true) → member.visibility = .family →
      ((t.canUse e member).runFrom m).1 = .ok true →
      ((t.canUse e' member).runFrom m').1 = .ok true) := by
  have hl' : t.source.Layered := hp ▸ hl
  refine ⟨?_, ?_, ?_⟩
  · intro A a ha
    have h := ha.assembles hp
    have hchain := h.parentChain hp
    refine ⟨hp ▸ hchain, hchain.nodup h.grounded, h.nodup_interfaces, ?_,
      h.isSubclassOf_irrefl hp hl'⟩
    intro i
    rw [h.mem_interfaces hp hl', hp]
  · intro A B C a b ha hb
    exact (ha.assembles hp).isSubclassOf_trans hp hl' (hb.assembles hp)
  · intro A D d e e' member m m' hm hm' hd hbelow hc hc' hb hv
    exact canUse_protected_below hp hl' (hm.atRest hp) (hm'.atRest hp) (hd.assembles hp) hbelow
      hc hc' hb hv

end SymbolTable

/-! ### The kennel -/

/-- What is protected in the trait of animals can be used in dogs. -/
theorem kennel_strictOrder :
    kennel.source.Layered ∧ ∃ dog, cloneable.Builds "Dog" dog ∧
      dog.ancestors = ["Animal"] ∧ dog.interfaces = ["Named", "Tagged"] ∧
      dog.isSubclassOf "Dog" = false ∧
      ((cloneable.canUse { file := "kennel.php", className := some "Dog" }
        { declaringClass := "Animal", visibility := .family }).runFrom {}).1 = .ok true := by
  have hl : kennel.source.Layered := Program.layered_of_entries (by decide) (by decide)
  obtain ⟨horder, -, huse⟩ := SymbolTable.isSubclassOf_strictOrder (t := cloneable) rfl hl
  have hdog : cloneable.Builds "Dog" _ := ⟨{}, .start, rfl⟩
  refine ⟨hl, _, hdog, rfl, rfl, (horder hdog).2.2.2.2, ?_⟩
  exact huse (A := "Animal") (e := { file := "kennel.php", className := some "Animal" })
    .start .start hdog rfl rfl rfl id rfl rfl

end PhpCheck
