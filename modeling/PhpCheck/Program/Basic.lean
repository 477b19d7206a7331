/-
  PhpCheck/Program/Basic.lean
  ===========================
  **Programs** — the classes and functions that code can refer to, and the
  classes whose loading fails.

  Classes are found by the name as written, functions without regard to case.
  A class stands under the name that its declaration gives it; the type says so
  (`named`).  A later declaration of a name replaces an earlier one.  A class
  with a load fault answers neither that it exists nor that it does not, even if
  it is declared.
-/
import PhpCheck.Program.Declaration
import PhpCheck.Text.Casing

namespace PhpCheck

theorem named_of_empty {name : String} {c : ClassDecl}
    (h : (NameMap.empty : NameMap ClassDecl).get? name = some c) : c.name = name :=
  absurd h NameMap.get?_empty_ne

/-- A set of declarations, functions under their lowercase names, and the reasons why the
    loading of some classes fails. -/
structure Program where
  classes : NameMap ClassDecl := .empty
  functions : NameMap FunctionDecl := .empty
  faults : NameMap String := .empty
  named : ∀ {name : String} {c : ClassDecl}, classes.get? name = some c → c.name = name := by
    exact @named_of_empty

namespace Program

/-- The program with a class, in place of an earlier one of the same name. -/
def addClass (p : Program) (c : ClassDecl) : Program :=
  { p with
    classes := p.classes.insert c.name c
    named := by
      intro name d h
      rw [NameMap.get?_insert] at h
      split at h
      · rename_i hn
        rw [← Option.some.inj h, hn]
      · exact p.named h }

/-- The program with a function, in place of an earlier one of the same name. -/
def addFunction (p : Program) (f : FunctionDecl) : Program :=
  { p with functions := p.functions.insert (Text.lowercase f.name) f }

def addFault (p : Program) (className reason : String) : Program :=
  { p with faults := p.faults.insert className reason }

def classCount (p : Program) : Nat := p.classes.size

/-- Whether a class is declared, or the reason why that cannot be told. -/
def classExists (p : Program) (name : String) : Except String Bool :=
  match p.faults.get? name with
  | some reason => .error reason
  | none => .ok (p.classes.contains name)

def class? (p : Program) (name : String) : Option ClassDecl := p.classes.get? name

def function? (p : Program) (name : String) : Option FunctionDecl :=
  p.functions.get? (Text.lowercase name)

def functionExists (p : Program) (name : String) : Bool := (p.function? name).isSome

end Program

end PhpCheck
