/-
  PhpCheck/Proofs/Env/Walk.lean
  =============================
  **Walks** — the ways through code, as lists of moves from one environment to
  the next.

  A move enters a construct, joins another branch, or is a step within a branch.
  Much of what an environment knows was made by one move and lasts until a move
  of another sort ends it.  Of such a thing it is enough to look at single moves:
  it is there if this move makes it, or if it was there and this move keeps it.
  Then it is there after a walk just if some move made it and all later ones kept
  it (`Env.holds_iff_since`).
-/
import Mathlib.Data.List.Induction
import PhpCheck.Proofs.Env.Branch

namespace PhpCheck

/-! ### Moves -/

/-- What can be done with an environment, apart from asking it. -/
inductive Move where
  | flow (step : FlowStep)
  | enterNamespace (name : String)
  | enterClass (name : String)
  | enterFunction (f : Signature)
  | enterBoundClosure
  | enterAnonymousClass (c : ClassInfo)
  | enterClosure (params : List Param) (captures : List Capture)
  | enterForeach (value : String) (key : Option String)
  | enterCatch (className name : String)
  | enterCall (function : String)
  | enterAssignment (name : String)
  | intersect (other : Env)
  | add (other : Env)

/-- The environment after a move, of which only to unset a variable can fail. -/
def Move.apply (e : Env) : Move → Except Failure Env
  | flow step => step.apply e
  | enterNamespace name => .ok (e.enterNamespace name)
  | enterClass name => .ok (e.enterClass name)
  | enterFunction f => .ok (e.enterFunction f)
  | enterBoundClosure => .ok e.enterBoundClosure
  | enterAnonymousClass c => .ok (e.enterAnonymousClass c)
  | enterClosure params captures => .ok (e.enterClosure params captures)
  | enterForeach value key => .ok (e.enterForeach value key)
  | enterCatch className name => .ok (e.enterCatch className name)
  | enterCall function => .ok (e.enterCall function)
  | enterAssignment name => .ok (e.enterAssignment name)
  | intersect other => .ok (e.intersect other)
  | add other => .ok (e.add other)

/-- The environment after a walk. -/
def Env.walk (e : Env) (moves : List Move) : Except Failure Env := moves.foldlM Move.apply e

/-! ### Since -/

/-- Some move of the sort `makes` was made, and all moves after it are of the sort `keeps`. -/
def Since (makes keeps : Move → Prop) (moves : List Move) : Prop :=
  ∃ before move after, moves = before ++ move :: after ∧ makes move ∧ ∀ later ∈ after, keeps later

section Since

variable {makes keeps : Move → Prop} {moves before after : List Move} {move : Move}

theorem not_since_nil : ¬ Since makes keeps [] := by
  rintro ⟨before, move, after, h, -⟩
  simp at h

/-- The last move made it, or it kept what an earlier one had made. -/
theorem since_concat :
    Since makes keeps (moves ++ [move]) ↔ makes move ∨ keeps move ∧ Since makes keeps moves := by
  constructor
  · rintro ⟨before, made, after, h, hmakes, hkeeps⟩
    rcases List.eq_nil_or_concat after with rfl | ⟨after, last, rfl⟩
    · obtain ⟨-, hlast⟩ := List.append_inj' h rfl
      cases hlast
      exact .inl hmakes
    · rw [List.concat_eq_append] at h hkeeps
      rw [← List.cons_append, ← List.append_assoc] at h
      obtain ⟨rfl, hlast⟩ := List.append_inj' h rfl
      cases hlast
      refine .inr ⟨hkeeps move (by simp), before, made, after, rfl, hmakes, ?_⟩
      exact fun later hlater => hkeeps later (List.mem_append_left _ hlater)
  · rintro (hmakes | ⟨hkeep, before, made, after, rfl, hmakes, hkeeps⟩)
    · exact ⟨moves, move, [], rfl, hmakes, by simp⟩
    · refine ⟨before, made, after ++ [move], by simp, hmakes, ?_⟩
      intro later hlater
      rcases List.mem_append.mp hlater with hlater | hlater
      · exact hkeeps later hlater
      · exact List.mem_singleton.mp hlater ▸ hkeep

/-- A move that does not keep it ends it, unless it is made again. -/
theorem not_since_of_ended (hmove : ¬ makes move) (hend : ¬ keeps move)
    (hafter : ∀ later ∈ after, ¬ makes later) :
    ¬ Since makes keeps (before ++ move :: after) := by
  induction after using List.reverseRecOn with
  | nil =>
    rw [since_concat]
    exact fun h => h.elim hmove fun h => hend h.1
  | append_singleton rest last ih =>
    have hassoc : before ++ move :: (rest ++ [last]) = (before ++ move :: rest) ++ [last] := by simp
    rw [hassoc, since_concat]
    rintro (h | ⟨-, h⟩)
    · exact hafter last (by simp) h
    · exact ih (fun later hlater => hafter later (List.mem_append_left _ hlater)) h

end Since

/-! ### Walks -/

namespace Env

variable {e a : Env} {moves : List Move} {move : Move}

theorem exists_of_walk_concat (h : e.walk (moves ++ [move]) = .ok a) :
    ∃ middle, e.walk moves = .ok middle ∧ move.apply middle = .ok a := by
  have hbind : (e.walk moves).bind (fun middle => move.apply middle >>= pure) = .ok a := by
    rw [walk, List.foldlM_append] at h
    exact h
  cases hm : e.walk moves with
  | error cause =>
    rw [hm] at hbind
    cases hbind
  | ok middle =>
    rw [hm] at hbind
    exact ⟨middle, rfl, (bind_pure (move.apply middle)).symm.trans hbind⟩

/-- **What lasts through a walk**, from what each move does, by induction on the walk from its
    end. -/
theorem holds_iff_since {P : Env → Prop} {makes keeps : Move → Prop} (hstart : ¬ P e)
    (hmove : ∀ {b c : Env} {m : Move}, m.apply b = .ok c → (P c ↔ makes m ∨ keeps m ∧ P b))
    (h : e.walk moves = .ok a) : P a ↔ Since makes keeps moves := by
  induction moves using List.reverseRecOn generalizing a with
  | nil =>
    cases h
    exact ⟨fun hp => absurd hp hstart, fun hs => absurd hs not_since_nil⟩
  | append_singleton moves move ih =>
    obtain ⟨middle, hmiddle, hlast⟩ := exists_of_walk_concat h
    rw [hmove hlast, ih hmiddle, since_concat]

end Env

end PhpCheck
