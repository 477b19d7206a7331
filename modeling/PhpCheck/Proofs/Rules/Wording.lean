/-
  PhpCheck/Proofs/Rules/Wording.lean
  ==================================
  **How messages begin** — the causes of complaints are told apart by the first
  words of their messages.

  A message has names from the source in it, which can be any text, so two
  messages are compared at their beginnings only: of two beginnings of one
  message one is a beginning of the other (`Complaint.Begins.not_begins`).
-/
import PhpCheck.Proofs.LookUp.Run
import PhpCheck.Rules.Arguments

namespace PhpCheck

open Analysis

namespace Complaint

variable {c : Complaint} {callee : Callee}

/-! ### Beginnings -/

/-- The message of the complaint begins with these words. -/
def Begins (start : String) (c : Complaint) : Prop := ∃ rest : String, c.message = start ++ rest

theorem Begins.of_append {start more : String} (h : c.Begins (start ++ more)) :
    c.Begins start := by
  obtain ⟨rest, hmessage⟩ := h
  rw [String.append_assoc] at hmessage
  exact ⟨more ++ rest, hmessage⟩

theorem Begins.toList_prefix {start : String} (h : c.Begins start) :
    start.toList <+: c.message.toList := by
  obtain ⟨rest, hmessage⟩ := h
  rw [hmessage, String.toList_append]
  exact List.prefix_append _ _

/-- A message that begins in one way does not begin in another. -/
theorem Begins.not_begins {start other : String} (h : c.Begins start)
    (hne : ¬ start.toList <+: other.toList ∧ ¬ other.toList <+: start.toList) :
    ¬ c.Begins other := by
  intro hother
  rcases List.prefix_or_prefix_of_prefix h.toList_prefix hother.toList_prefix with hle | hle
  · exact hne.1 hle
  · exact hne.2 hle

/-- A message that is written part by part begins with its first part. -/
theorem begins_of_parts {start : String} (parts : List String)
    (h : c.message = parts.foldl (· ++ ·) start) : c.Begins start := by
  have hstart : ∀ (parts : List String) (text : String),
      ∃ rest, parts.foldl (· ++ ·) text = text ++ rest := by
    intro parts
    induction parts with
    | nil =>
      intro text
      exact ⟨"", by simp⟩
    | cons part others ih =>
      intro text
      obtain ⟨rest, hrest⟩ := ih (text ++ part)
      exact ⟨part ++ rest, by rw [List.foldl_cons, hrest, String.append_assoc]⟩
  obtain ⟨rest, hrest⟩ := hstart parts start
  exact ⟨rest, h.trans hrest⟩

theorem begins_undefinedMethod (className method : String) :
    (undefinedMethod className method).Begins "Call to an undefined method " :=
  begins_of_parts [className, "::", method, "()."] rfl

theorem begins_privateMethodOfParent (method parent : String) :
    (privateMethodOfParent method parent).Begins "Call to private method " :=
  begins_of_parts [method, "() of parent class ", parent, "."] rfl

theorem begins_inaccessibleMethod (declaringClass method : String) :
    (inaccessibleMethod declaringClass method).Begins "Cannot call method " :=
  begins_of_parts [declaringClass, "::", method, "() from current scope."] rfl

theorem begins_methodCase (declaringClass method written : String) :
    (methodCase declaringClass method written).Begins "Call to method " :=
  begins_of_parts [declaringClass, "::", method, "() with incorrect case: ", written] rfl

theorem begins_staticMethodCase (className method written : String) :
    (staticMethodCase className method written).Begins "Call to static method " :=
  begins_of_parts [className, "::", method, "() with incorrect case: ", written] rfl

/-! ### Complaints about arguments -/

/-- The complaint is one about the number or the type of arguments of the callee. -/
inductive AboutArguments (callee : Callee) : Complaint → Prop where
  | count (given least : Nat) (most : Option Nat) :
      AboutArguments callee (.argumentCount callee given least most)
  | type (position : Nat) (param : String) (expected given : PhpType) :
      AboutArguments callee (.argumentType callee position param expected given)

theorem AboutArguments.begins (h : c.AboutArguments callee) :
    c.Begins callee.invoked ∨ c.Begins "Parameter " := by
  cases h with
  | count given least most =>
    left
    let noun := if given = 1 then "parameter" else "parameters"
    exact begins_of_parts
      [" invoked with ", toString given, " ", noun, ", ", countText least most, " required."] rfl
  | type position param expected given =>
    right
    exact begins_of_parts
      [toString position, " ($", param, ") of ", callee.described, " expects ", expected.text, ", ",
        given.text ++ " given."] rfl

end Complaint

namespace SymbolTable

variable {t : SymbolTable} {e : Env}

theorem typeComplaints_about (s : Signature) (callee : Callee) (index : Nat) (args : List Arg) :
    Yields (fun cs => ∀ c ∈ cs, c.AboutArguments callee)
      (t.typeComplaints e s callee index args) := by
  induction args generalizing index with
  | nil =>
    rw [typeComplaints]
    exact .of_pure (by simp)
  | cons arg rest ih =>
    rw [typeComplaints]
    by_cases hunpacked : arg.unpacked = true
    · rw [if_pos hunpacked]
      exact .of_pure (by simp)
    · rw [if_neg hunpacked]
      cases s.paramAt? index with
      | none => exact .of_pure (by simp)
      | some param =>
        refine .after _ fun given => .after _ fun fits => (ih _).bind fun others hothers => ?_
        refine .of_pure ?_
        cases fits with
        | true => exact hothers
        | false => exact List.forall_mem_cons.mpr ⟨.type _ _ _ _, hothers⟩

theorem argComplaints_about (settings : Settings) (s : Signature) (args : List Arg)
    (callee : Callee) :
    Yields (fun cs => ∀ c ∈ cs, c.AboutArguments callee)
      (t.argComplaints e settings s args callee) := by
  unfold argComplaints
  cases hcount : s.countComplaint? args callee with
  | some c =>
    unfold Signature.countComplaint? at hcount
    obtain ⟨-, hc⟩ := Option.ite_none_left_eq_some.mp hcount
    cases hc
    exact .of_pure (List.forall_mem_singleton.mpr (.count _ _ _))
  | none =>
    cases settings.argumentTypes with
    | true => exact typeComplaints_about s callee 0 args
    | false => exact .of_pure (by simp)

/-- Of the complaints about a call something holds if it holds of those about its arguments and
    of the others. -/
theorem argComplaints_append_yields {good : Complaint → Prop} (settings : Settings)
    (s : Signature) (args : List Arg) {callee : Callee} {others : List Complaint}
    (hargs : ∀ c, c.AboutArguments callee → good c) (hothers : ∀ c ∈ others, good c) :
    Yields (fun cs => ∀ c ∈ cs, good c)
      (do return (← t.argComplaints e settings s args callee) ++ others) := by
  refine (t.argComplaints_about settings s args callee).bind fun complaints hcomplaints => ?_
  refine .of_pure ?_
  intro c hc
  rcases List.mem_append.mp hc with hc | hc
  · exact hargs c (hcomplaints c hc)
  · exact hothers c hc

end SymbolTable

end PhpCheck
