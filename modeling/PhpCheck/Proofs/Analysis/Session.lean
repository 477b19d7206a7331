/-
  PhpCheck/Proofs/Analysis/Session.lean
  =====================================
  **Sessions** — the requests that one symbol table gets, one after the other.

  No request takes anything from the memory, and none makes a function known that
  was not (`SymbolTable.Onward.later`).  So what was answered once is answered
  again in the same way as long as the session goes on, also if it was a failure.
  For a question about a function alone this rests on the source: if it declared
  functions that it says not to exist, to look one up would make it known.
-/
import Mathlib.Logic.Relation
import PhpCheck.Proofs.Analysis.Order

namespace PhpCheck

open Analysis

namespace SymbolTable

/-- The second memory is what becomes of the first one as the session goes on. -/
abbrev Onward (t : SymbolTable) : Memory → Memory → Prop :=
  Relation.ReflTransGen fun m m' => ∃ request, m' = t.after m request

variable {t : SymbolTable} {m m' : Memory}

theorem functionInfo_later (hk : t.source.KnowsFunctions) (name : String) (m : Memory) :
    Later t m ((t.functionInfo name).runFrom m).2 := by
  rw [runFrom_functionInfo]
  split
  · exact .refl m
  · rename_i hnone hd
    have hexists : t.source.functionExists (functionKey name) = true := hk _ (by simp [hd])
    have hknown : t.knowsFunction m (functionKey name) = true := by
      rw [knowsFunction, hexists, Bool.or_true]
    exact later_addFunction hknown hnone
  · exact .refl m

theorem ask_later (hk : t.source.KnowsFunctions) (hm : AtRest t m) (q : Query) :
    Later t m ((t.ask q).runFrom m).2 := by
  cases q with
  | hasClass name => exact ((t.hasClass_repeatable name).bind fun a => .pure _).later hm
  | classInfo name => exact ((t.classInfo_repeatable name).bind fun a => .pure _).later hm
  | hasFunction name => exact .refl m
  | functionInfo name =>
    have hlater := functionInfo_later hk name m
    have hrun := runFrom_bind (t.functionInfo name) (fun f => Pure.pure (Answer.signature f)) m
    rcases hr : (t.functionInfo name).runFrom m with ⟨_ | _, n⟩ <;>
      · rw [hr] at hlater hrun
        exact hrun ▸ hlater
  | returnExtensions name =>
    exact ((t.returnExtensionsFor_repeatable name).bind fun a => .pure _).later hm

theorem later_after (hk : t.source.KnowsFunctions) (hm : AtRest t m) (request : Request) :
    Later t m (t.after m request) := by
  cases request with
  | query q => exact ask_later hk hm q
  | infer e x => exact (x.infer_repeatable t e).later hm
  | use e member => exact (t.canUse_repeatable e member).later hm
  | check r settings h e node => exact (RuleSet.defaults_repeatable t e h node).later hm
  | process settings e node => exact (RuleSet.process_repeatable t settings e node).later hm

theorem Onward.atRest (h : t.Onward m m') (hm : AtRest t m) : AtRest t m' := by
  induction h with
  | refl => exact hm
  | tail _ hlast ih =>
    obtain ⟨request, rfl⟩ := hlast
    exact atRest_after ih request

/-- As a session goes on, nothing is forgotten and no function becomes known. -/
theorem Onward.later (hk : t.source.KnowsFunctions) (h : t.Onward m m') (hm : AtRest t m) :
    Later t m m' := by
  induction h with
  | refl => exact .refl m
  | tail hbefore hlast ih =>
    obtain ⟨request, rfl⟩ := hlast
    exact ih.trans (later_after hk (Onward.atRest hbefore hm) request)

end SymbolTable

end PhpCheck
