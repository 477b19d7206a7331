/-
  PhpCheck/Rules/Finding.lean
  ===========================
  **Findings** — what a rule has to say about a node, as a cause with its parts,
  and the wording of each cause.

  A finding may name a line of its own; otherwise it is about the line of the
  node.
-/
import PhpCheck.Types.Text
import PhpCheck.Code.Node

namespace PhpCheck

/-- How something that is called is named: at the start of a sentence, and inside one. -/
structure Callee where
  invoked : String
  described : String
deriving DecidableEq, Repr

namespace Callee

def method (name : String) : Callee := ⟨"Method " ++ name, "method " ++ name⟩

def staticMethod (name : String) : Callee :=
  ⟨"Static method " ++ name, "static method " ++ name⟩

def constructorOf (className : String) : Callee :=
  ⟨"Class " ++ className ++ " constructor", "class " ++ className ++ " constructor"⟩

def parentConstructor : Callee := ⟨"Parent constructor", "parent constructor"⟩

end Callee

/-- Whose signature a hint belongs to. -/
inductive HintOwner where
  | method (className name : String)
  | closure
deriving DecidableEq, Repr

def HintOwner.text : HintOwner → String
  | .method className name => "method " ++ className ++ "::" ++ name ++ "()"
  | .closure => "anonymous function"

inductive Complaint where
  | undefinedMethod (className method : String)
  | privateMethodOfParent (method parent : String)
  | inaccessibleMethod (declaringClass method : String)
  | methodCase (declaringClass method written : String)
  | callWithoutParent (className function method : String)
  | undefinedStaticMethod (className method : String)
  | staticCallOfInstanceMethod (className method : String)
  | restrictedStaticMethod (visibility : Visibility) (method declaringClass : String)
  | staticMethodCase (className method written : String)
  | instantiatedUnknown (className : String)
  | instantiatedInterface (className : String)
  | instantiatedAbstract (className : String)
  | noConstructor (className : String)
  | accessWithoutParent (className function property : String)
  | undefinedStaticProperty (className property : String)
  | staticAccessOfInstanceProperty (declaringClass property : String)
  | restrictedStaticProperty (visibility : Visibility) (property declaringClass : String)
  | argumentCount (callee : Callee) (given least : Nat) (most : Option Nat)
  | argumentType (callee : Callee) (position : Nat) (param : String) (expected given : PhpType)
  | unknownParamClass (owner : HintOwner) (param className : String)
  | unknownResultClass (owner : HintOwner) (className : String)
  | custom (text : String)
deriving DecidableEq, Repr

def countText (least : Nat) : Option Nat → String
  | none => "at least " ++ toString least
  | some most =>
    if least = most then toString least else toString least ++ "-" ++ toString most

def Complaint.message : Complaint → String
  | .undefinedMethod c m => s!"Call to an undefined method {c}::{m}()."
  | .privateMethodOfParent m p => s!"Call to private method {m}() of parent class {p}."
  | .inaccessibleMethod c m => s!"Cannot call method {c}::{m}() from current scope."
  | .methodCase c m w => s!"Call to method {c}::{m}() with incorrect case: {w}"
  | .callWithoutParent c f m =>
      s!"{c}::{f}() calls to parent::{m}() but {c} does not extend any class."
  | .undefinedStaticMethod c m => s!"Call to an undefined static method {c}::{m}()."
  | .staticCallOfInstanceMethod c m => s!"Static call to instance method {c}::{m}()."
  | .restrictedStaticMethod v m c => s!"Call to {v.text} static method {m}() of class {c}."
  | .staticMethodCase c m w => s!"Call to static method {c}::{m}() with incorrect case: {w}"
  | .instantiatedUnknown c => s!"Instantiated class {c} not found."
  | .instantiatedInterface c => s!"Cannot instantiate interface {c}."
  | .instantiatedAbstract c => s!"Instantiated class {c} is abstract."
  | .noConstructor c =>
      s!"Class {c} does not have a constructor and must be instantiated without any parameters."
  | .accessWithoutParent c f p =>
      s!"{c}::{f}() accesses parent::${p} but {c} does not extend any class."
  | .undefinedStaticProperty c p => s!"Access to an undefined static property {c}::${p}."
  | .staticAccessOfInstanceProperty c p => s!"Static access to instance property {c}::${p}."
  | .restrictedStaticProperty v p c => s!"Access to {v.text} static property ${p} of class {c}."
  | .argumentCount callee given least most =>
      let noun := if given = 1 then "parameter" else "parameters"
      s!"{callee.invoked} invoked with {given} {noun}, {countText least most} required."
  | .argumentType callee position param expected given =>
      s!"Parameter {position} (${param}) of {callee.described} expects {expected.text}, "
        ++ s!"{given.text} given."
  | .unknownParamClass owner p c =>
      s!"Parameter ${p} of {owner.text} has invalid typehint type {c}."
  | .unknownResultClass owner c => s!"Return typehint of {owner.text} has invalid type {c}."
  | .custom text => text

/-- A complaint, with a line of its own if it is not about that of the node. -/
structure Finding where
  complaint : Complaint
  line : Option Nat := none
deriving DecidableEq, Repr

def Finding.ofComplaints (cs : List Complaint) : List Finding := cs.map fun c => { complaint := c }

end PhpCheck
