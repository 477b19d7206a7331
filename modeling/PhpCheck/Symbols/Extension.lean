/-
  PhpCheck/Symbols/Extension.lean
  ===============================
  **Extensions** — what a host adds to the symbols of a program: members that no
  declaration lists, and types of method calls that depend on the call.

  A member extension may look classes up before it answers, whatever comes of
  the look-up, and may leave notes.  It says so as a `Consultation`: a script
  that the table runs, so that an extension can be reasoned about like any other
  value.  `Consultation.Settles v` holds of a script that answers `v` whatever
  its look-ups give.

  An extension for calls answers by a script too, a `ReturnAnswer`.  It sees the
  call and the environment as they stand, so what it asks for are look-ups of
  classes and functions, and the types of the receiver and of the arguments.  Had
  it asked for the type of the call, it would be asked in turn, without end.
-/
import PhpCheck.Symbols.Failure
import PhpCheck.Env.Basic

namespace PhpCheck

/-- What an extension does before it answers. -/
inductive Consultation (α : Type) where
  | answer (value : α)
  | note (line : String) (next : Consultation α)
  | consult (className : String) (next : Except Failure ClassInfo → Consultation α)

/-- The script answers a value whatever its look-ups give. -/
inductive Consultation.Settles {α : Type} (v : α) : Consultation α → Prop where
  | answer : Settles v (.answer v)
  | note {line : String} {next : Consultation α} : Settles v next → Settles v (.note line next)
  | consult {className : String} {next : Except Failure ClassInfo → Consultation α} :
      (∀ outcome, Settles v (next outcome)) → Settles v (.consult className next)

structure MemberExtension (α : Type) where
  appliesTo : ClassInfo → Bool
  members : ClassInfo → Consultation (List α)

/-- A part of a method call. -/
inductive CallPart where
  | receiver
  | argument (index : Nat)

/-- What an extension does before it says what the type of a method call is. -/
inductive ReturnAnswer where
  | known (type : PhpType)
  | failed (cause : Failure)
  | hasClass (className : String) (next : Except Failure Bool → ReturnAnswer)
  | consult (className : String) (next : Except Failure ClassInfo → ReturnAnswer)
  /-- Functions are looked up only if they are known. -/
  | consultFunction (name : String) (next : Except Failure (Option Signature) → ReturnAnswer)
  | infer (part : CallPart) (next : Except Failure PhpType → ReturnAnswer)

namespace ReturnAnswer

/-- The outcome of a look-up or of inference. -/
def ofOutcome : Except Failure PhpType → ReturnAnswer
  | .ok type => .known type
  | .error cause => .failed cause

/-- The type of an argument of the call; `mixed` if there is no such argument. -/
def ofArgument (index : Nat) : ReturnAnswer := .infer (.argument index) ofOutcome

end ReturnAnswer

/-- Types the calls of some methods of a class and of the classes below it. -/
structure ReturnExtension where
  className : String
  supports : MethodInfo → Bool
  answer : MethodInfo → Expr → Env → ReturnAnswer

end PhpCheck
