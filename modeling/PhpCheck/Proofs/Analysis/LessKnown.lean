/-
  PhpCheck/Proofs/Analysis/LessKnown.lean
  =======================================
  **Where less is known** — the type of an expression at two points of the code
  that differ in their variables, asked of one symbol table.

  Where less is known of the variables, inference still succeeds, and of a type it
  says the same kind or none (`Expr.coarser_of_widensTo`).  The two questions may
  come in either order, and if the source declares no functions that it says not to
  exist, at any distance within a session (`SymbolTable.Comparable`).  If the second
  point is asked about first, `Expr.infer_widens` speaks of a later answer than the
  one that was given; but a question that is asked again gets the same answer, also
  if it is a failure (`Carries.succeeds_of_comparable`).
-/
import PhpCheck.Proofs.Analysis.Session
import PhpCheck.Proofs.Analysis.Widening

namespace PhpCheck

open Analysis

/-- Two questions come one right after the other: the first one from one memory, the second one
    from another, in whatever order. -/
def Analysis.InSuccession {α β : Type} (x : Analysis α) (m : Memory) (y : Analysis β)
    (m' : Memory) : Prop :=
  m' = (x.runFrom m).2 ∨ m = (y.runFrom m').2

/-- A question that is asked twice, one time right after the other, gets one answer. -/
theorem Repeatable.same_inSuccession {α : Type} {t : SymbolTable} {x : Analysis α}
    (h : Repeatable t x) {m m' : Memory} (hm : AtRest t m) (hm' : AtRest t m')
    (hasked : InSuccession x m x m') : (x.runFrom m).1 = (x.runFrom m').1 := by
  rcases hasked with rfl | rfl
  · exact (h.again hm hm' (.refl _)).symm
  · exact h.again hm' hm (.refl _)

/-- Two questions are one to the table: from one memory they do the same, and asked one right after
    the other they get one answer. -/
def SymbolTable.Agree {α : Type} (t : SymbolTable) (x y : Analysis α) : Prop :=
  x = y ∧ ∀ {m m' : Memory}, t.Arises m → t.Arises m' → InSuccession x m y m' →
    (x.runFrom m).1 = (y.runFrom m').1

theorem Repeatable.agree {α : Type} {t : SymbolTable} {x y : Analysis α} (h : Repeatable t x)
    (heq : x = y) : t.Agree x y := by
  subst heq
  exact ⟨rfl, fun hm hm' => h.same_inSuccession hm.atRest hm'.atRest⟩

/-- Two questions come in one session, in whatever order and with whatever requests in between. -/
def SymbolTable.InOneSession {α β : Type} (t : SymbolTable) (x : Analysis α) (m : Memory)
    (y : Analysis β) (m' : Memory) : Prop :=
  t.Onward (x.runFrom m).2 m' ∨ t.Onward (y.runFrom m').2 m

/-- Two questions, each asked from a memory, can be compared: one is asked at a later time than the
    other, or, where all declared functions exist, in one session with it, or no extension makes
    the memories matter. -/
inductive SymbolTable.Comparable {α β : Type} (t : SymbolTable) (x : Analysis α) (m : Memory)
    (y : Analysis β) (m' : Memory) : Prop where
  | after : Later t (x.runFrom m).2 m' → Comparable t x m y m'
  | before : Later t (y.runFrom m').2 m → Comparable t x m y m'
  | inSession : t.source.KnowsFunctions → t.InOneSession x m y m' → Comparable t x m y m'
  | settled : t.source.KnowsFunctions → t.Settled → Comparable t x m y m'

section Carrying

variable {α β : Type} {t : SymbolTable} {R : α → β → Prop} {x : Analysis α} {y : Analysis β}
  {m m' : Memory} {a : α}

theorem Analysis.InSuccession.comparable (h : InSuccession x m y m') : t.Comparable x m y m' := by
  rcases h with rfl | rfl
  · exact .after (.refl _)
  · exact .before (.refl _)

/-- What carries over to later times carries over to earlier ones, because the second step has the
    same outcome when it is done again after the first one. -/
theorem Carries.succeeds_before (h : Carries t R x y) (hm : AtRest t m) (hm' : AtRest t m')
    (hl : Later t (y.runFrom m').2 m) (ha : (x.runFrom m).1 = .ok a) :
    ∃ b, (y.runFrom m').1 = .ok b ∧ R a b := by
  have hrest := h.left.atRest hm
  have hagain := h.right.again hm' hrest (hl.trans (h.left.later hm))
  obtain ⟨b, hb, hab⟩ := h.succeeds hm hrest (.refl _) ha
  exact ⟨b, hagain.symm.trans hb, hab⟩

/-- If all extensions are settled, what carries over does so from any time to any other. -/
theorem Carries.succeeds_of_settled (h : Carries t R x y) (hs : t.Settled)
    (hk : t.source.KnowsFunctions) (hm : AtRest t m) (hm' : AtRest t m')
    (ha : (x.runFrom m).1 = .ok a) : ∃ b, (y.runFrom m').1 = .ok b ∧ R a b := by
  have hrest := h.left.atRest hm
  have hsame := (h.right.transparent hk).same hs hm' hrest
  obtain ⟨b, hb, hab⟩ := h.succeeds hm hrest (.refl _) ha
  exact ⟨b, hsame.trans hb, hab⟩

theorem Carries.succeeds_of_comparable (h : Carries t R x y) (hm : AtRest t m)
    (hm' : AtRest t m') (hasked : t.Comparable x m y m') (ha : (x.runFrom m).1 = .ok a) :
    ∃ b, (y.runFrom m').1 = .ok b ∧ R a b := by
  cases hasked with
  | after hl => exact h.succeeds hm hm' hl ha
  | before hl => exact h.succeeds_before hm hm' hl ha
  | inSession hk hl =>
    rcases hl with hl | hl
    · exact h.succeeds hm hm' (hl.later hk (h.left.atRest hm)) ha
    · exact h.succeeds_before hm hm' (hl.later hk (h.right.atRest hm')) ha
  | settled hk hs => exact h.succeeds_of_settled hs hk hm hm' ha

end Carrying

namespace Expr

/-- Whenever the expression has a type in the first environment, it has one in the second, of the
    same kind or of none that is known, if the table is asked in succession; and where all declared
    functions exist, also within one session, or at any time if all extensions are settled. -/
def Coarser (t : SymbolTable) (e e' : Env) (x : Expr) : Prop :=
  ∀ {m m' : Memory} {type : PhpType}, t.Arises m → t.Arises m' →
    InSuccession (x.infer t e) m (x.infer t e') m' ∨
      t.source.KnowsFunctions ∧
        (t.InOneSession (x.infer t e) m (x.infer t e') m' ∨ t.Settled) →
    ((x.infer t e).runFrom m).1 = .ok type →
    ∃ type', ((x.infer t e').runFrom m').1 = .ok type' ∧
      (type'.kind = type.kind ∨ type'.kind = .mixed)

/-- **Where less is known, less is inferred.**  Without extensions for calls, and if no arithmetic
    in the expression is narrowed: in an environment that differs in its variables only, each of
    which has its kind, or `mixed`, or is not bound, inference succeeds where it did before, with
    a type of the same kind or of none that is known.  The join with any other branch is such an
    environment. -/
theorem coarser_of_widensTo {t : SymbolTable} {e : Env} (hx : t.returnExtensions = .empty)
    (x : Expr) (hn : x.Everywhere e.LeavesArithmetic) :
    (∀ e', e.WidensTo e' → x.Coarser t e e') ∧ ∀ other, x.Coarser t e (e.intersect other) := by
  have hcoarser : ∀ e', e.WidensTo e' → x.Coarser t e e' := by
    intro e' he m m' type hm hm' hasked h
    have hcomparable : t.Comparable (x.infer t e) m (x.infer t e') m' := by
      rcases hasked with hnext | ⟨hk, hl | hs⟩
      · exact hnext.comparable
      · exact .inSession hk hl
      · exact .settled hk hs
    exact (infer_widens hx he x hn).succeeds_of_comparable hm.atRest hm'.atRest hcomparable h
  exact ⟨hcoarser, fun other => hcoarser _ (e.widensTo_intersect other)⟩

end Expr

namespace Kennel

/-- At night nothing is known of the animals. -/
def night : Env := { yard with bindings := .empty }

/-- The clone of a clone of the dog. -/
def grandclone : Expr :=
  let clone := fun x => Expr.methodCall {} x (.literal "clone") []
  clone (clone (.variable {} (.literal "dog")))

/-- At night, asked before the day, the clone has no known kind, and where night and day meet it
    has none either; by day it is an animal. -/
theorem grandclone_at_night :
    cloneable.returnExtensions = .empty ∧ grandclone.Everywhere yard.LeavesArithmetic ∧
      yard.WidensTo night ∧
      ∃ m, ((grandclone.infer cloneable night).runFrom {}).2 = m ∧
        ((grandclone.infer cloneable yard).runFrom m).1 = .ok (.object "Animal") ∧
        (∃ type, ((grandclone.infer cloneable night).runFrom {}).1 = .ok type ∧
          (type.kind = .object "Animal" ∨ type.kind = .mixed)) ∧
        grandclone.Coarser cloneable yard (yard.intersect night) := by
  have hnone : grandclone.Everywhere yard.LeavesArithmetic := fun _ _ _ => rfl
  have hnight : yard.WidensTo night := ⟨rfl, rfl, rfl, rfl, rfl, rfl, fun _ => .inr rfl⟩
  have hcoarser := grandclone.coarser_of_widensTo (t := cloneable) rfl hnone
  have hrun : ((grandclone.infer cloneable yard).runFrom
      ((grandclone.infer cloneable night).runFrom {}).2).1 = .ok (.object "Animal") := rfl
  refine ⟨rfl, hnone, hnight, _, rfl, hrun, ?_, hcoarser.2 night⟩
  exact hcoarser.1 night hnight (SymbolTable.Arises.start.after (.infer night grandclone)) .start
    (.inl (.inr rfl)) hrun

end Kennel

end PhpCheck
