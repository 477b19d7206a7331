/-
  PhpCheck/Symbols/Source.lean
  ============================
  **Sources of symbols** — where declarations are looked up.

  A source answers whether a class exists, which can fail, and what it
  declares; a class may exist without a declaration.  Only finitely many names
  have a declaration, and a source lists them: this is what bounds the height of
  a class hierarchy.  A program is a source, and a source can be given further
  names for its classes.
-/
import PhpCheck.Program.Basic

namespace PhpCheck

/-- What can be asked about the symbols of a program. -/
structure SymbolSource where
  /-- Whether a class exists, or the reason why that cannot be told. -/
  classExists : String → Except String Bool
  class? : String → Option ClassDecl
  functionExists : String → Bool
  function? : String → Option FunctionDecl
  /-- The names that have a class declaration, perhaps among others. -/
  classNames : List String
  mem_classNames : ∀ {name : String}, (class? name).isSome → name ∈ classNames

def Program.source (p : Program) : SymbolSource where
  classExists := p.classExists
  class? := p.class?
  functionExists := p.functionExists
  function? := p.function?
  classNames := p.classes.names
  mem_classNames := NameMap.isSome_lookup.mp

namespace SymbolSource

/-- The source in which some class names stand for other ones. -/
def withAliases (s : SymbolSource) (aliases : NameMap String) : SymbolSource :=
  let real := fun name => (aliases.get? name).getD name
  { s with
    classExists := fun name => s.classExists (real name)
    class? := fun name => s.class? (real name)
    classNames := aliases.names ++ s.classNames
    mem_classNames := by
      intro name h
      rw [List.mem_append]
      cases ha : aliases.get? name with
      | some _ => exact .inl (NameMap.isSome_lookup.mp (by rw [← NameMap.get?, ha]; rfl))
      | none =>
        refine .inr (s.mem_classNames ?_)
        simpa only [real, ha, Option.getD_none] using h }

/-- The source in which some classes exist without a declaration. -/
def withUndeclared (s : SymbolSource) (names : List String) : SymbolSource :=
  { s with
    classExists := fun name => if names.contains name then .ok true else s.classExists name
    class? := fun name => if names.contains name then none else s.class? name
    mem_classNames := by
      intro name h
      by_cases hn : names.contains name
      · rw [if_pos hn] at h; cases h
      · rw [if_neg hn] at h; exact s.mem_classNames h }

end SymbolSource

end PhpCheck
