/-
  PhpCheck/Symbols/Table.lean
  ===========================
  **The symbol table** — looks symbols up in a source, puts classes together,
  and remembers what it has put together.

  To look a class up, its traits, parent and interfaces are looked up first, and
  extensions may look up any class.  A class that is met again while it is being
  put together is part of a circular hierarchy.  Only classes that were put
  together without a failure are remembered.

  Each class that is being put together has a declaration, and none is put
  together twice at the same time, so look-ups are nested at most as deep as
  there are declared names.  `lookUp` goes to a given depth, and what it does
  below that depth is left open: at the depth of `classInfo` nothing depends
  on it.
-/
import PhpCheck.Symbols.Assembly
import PhpCheck.Symbols.Extension
import PhpCheck.Symbols.Source

namespace PhpCheck

/-- What is remembered between look-ups. -/
structure Memory where
  /-- The classes that were put together, under the names they were looked up by. -/
  classes : NameMap ClassInfo := .empty
  /-- The functions that were looked up, under their lowercase names. -/
  functions : NameMap Signature := .empty
  /-- The classes that are being put together. -/
  building : List String := []
  /-- The notes that extensions left, in order. -/
  journal : List String := []

namespace Memory

def mark (m : Memory) (name : String) : Memory := { m with building := name :: m.building }

def unmark (m : Memory) (name : String) : Memory := { m with building := m.building.erase name }

def addClass (m : Memory) (name : String) (c : ClassInfo) : Memory :=
  { m with classes := m.classes.insert name c }

def addFunction (m : Memory) (key : String) (f : Signature) : Memory :=
  { m with functions := m.functions.insert key f }

def addNote (m : Memory) (line : String) : Memory := { m with journal := m.journal ++ [line] }

end Memory

/-- A step of an analysis: it may fail, and what it remembers stays remembered. -/
abbrev Analysis := ExceptT Failure (StateM Memory)

namespace Analysis

def attempt {α : Type} (x : Analysis α) : Analysis (Except Failure α) := ExceptT.lift x.run

def runFrom {α : Type} (x : Analysis α) (m : Memory) : Except Failure α × Memory := x.run.run m

end Analysis

/-- Runs a script, with a given way to look classes up. -/
def Consultation.run {α : Type} (look : String → Analysis ClassInfo) :
    Consultation α → Analysis α
  | .answer value => pure value
  | .note line next => do
    modify (·.addNote line)
    next.run look
  | .consult className next => do
    let outcome ← (look className).attempt
    (next outcome).run look

/-- A source of symbols and what extends it. -/
structure SymbolTable where
  source : SymbolSource
  propertyExtensions : List (MemberExtension PropertyInfo) := []
  methodExtensions : List (MemberExtension MethodInfo) := []
  /-- For each class its extensions, in the order of their registration. -/
  returnExtensions : NameMap (List ReturnExtension) := .empty

namespace SymbolTable

def addReturnExtension (t : SymbolTable) (x : ReturnExtension) : SymbolTable :=
  let earlier := (t.returnExtensions.get? x.className).getD []
  { t with returnExtensions := t.returnExtensions.insert x.className (earlier ++ [x]) }

/-! ### Classes -/

def hasClass (t : SymbolTable) (name : String) : Analysis Bool := do
  if (← get).classes.contains name then return true
  match t.source.classExists name with
  | .ok known => return known
  | .error reason => throw (.classLoading name reason)

def extendWith {α : Type} (look : String → Analysis ClassInfo)
    (add : ClassInfo → List α → ClassInfo) (c : ClassInfo) (x : MemberExtension α) :
    Analysis ClassInfo := do
  if x.appliesTo c then
    let members ← (x.members c).run look
    return add c members
  else return c

/-- A declared class with what its traits, its parent and its interfaces add to it, with a given
    way to look these up. -/
def gather (look : String → Analysis ClassInfo) (decl : ClassDecl) : Analysis ClassInfo := do
  let c ← decl.traits.foldlM (fun c used => return c.useTrait (← look used)) decl.info
  let c ← decl.parent.toList.foldlM (fun c parent => return c.extendParent (← look parent)) c
  let c ← decl.interfaces.foldlM (fun c above => return c.implement (← look above)) c
  return c.withoutRepeats

/-- Puts a class together, with a given way to look up the classes it depends on. -/
def build (t : SymbolTable) (look : String → Analysis ClassInfo) (name : String) :
    Analysis ClassInfo := do
  let some decl := t.source.class? name | throw (.classNotFound name)
  let c ← gather look decl
  let c ← t.propertyExtensions.foldlM (extendWith look ClassInfo.addProperties) c
  t.methodExtensions.foldlM (extendWith look ClassInfo.addMethods) c

/-- Puts a class together, marked as being put together meanwhile, and remembers it. -/
def buildMarked (t : SymbolTable) (look : String → Analysis ClassInfo) (name : String) :
    Analysis ClassInfo := do
  modify (·.mark name)
  let outcome ← (t.build look name).attempt
  modify (·.unmark name)
  match outcome with
  | .ok c =>
    modify (·.addClass name c)
    return c
  | .error cause => throw cause

/-- Looks a class up, with a given way to look up the classes it depends on. -/
def lookUpVia (t : SymbolTable) (look : String → Analysis ClassInfo) (name : String) :
    Analysis ClassInfo := do
  if let some c := (← get).classes.get? name then return c
  unless ← t.hasClass name do throw (.classNotFound name)
  if (← get).building.contains name then throw (.circularHierarchy name)
  t.buildMarked look name

/-- Looks a class up, at most so many look-ups deep; `deeper` stands for the look-ups below. -/
def lookUp (t : SymbolTable) (deeper : String → Analysis ClassInfo) :
    Nat → String → Analysis ClassInfo
  | 0 => deeper
  | depth + 1 => t.lookUpVia (t.lookUp deeper depth)

def classInfo (t : SymbolTable) (name : String) : Analysis ClassInfo :=
  t.lookUp (fun name => throw (.circularHierarchy name)) (t.source.classNames.length + 1) name

/-- The class of a name, if the name is that of a class. -/
def classInfo? (t : SymbolTable) (name : String) : Analysis (Option ClassInfo) := do
  if ← t.hasClass name then some <$> t.classInfo name else return none

/-! ### Functions -/

def functionKey (name : String) : String := Text.lowercase (Text.withoutRoot name)

def hasFunction (t : SymbolTable) (name : String) : Analysis Bool := do
  let key := functionKey name
  return (← get).functions.contains key || t.source.functionExists key

def functionInfo (t : SymbolTable) (name : String) : Analysis Signature := do
  let key := functionKey name
  if let some f := (← get).functions.get? key then return f
  let some decl := t.source.function? key | throw (.functionNotFound name)
  let f := decl.info key
  modify (·.addFunction key f)
  return f

/-- The function of a name, if the name is that of a function. -/
def functionInfo? (t : SymbolTable) (name : String) : Analysis (Option Signature) := do
  if ← t.hasFunction name then some <$> t.functionInfo name else return none

/-! ### Extensions for types of calls -/

/-- The extensions for a class and its ancestors, those for nearer classes first. -/
def returnExtensionsFor (t : SymbolTable) (className : String) :
    Analysis (List ReturnExtension) := do
  if t.returnExtensions.entries.isEmpty then return []
  let ancestors := (← t.classInfo? className).elim [] (·.ancestors)
  return (className :: ancestors).flatMap fun name => (t.returnExtensions.get? name).getD []

/-! ### Summary -/

/-- How much a table remembers and how it is extended, on one line. -/
def summary (t : SymbolTable) (m : Memory) : String :=
  "Broker \x7b cached_classes: " ++ toString m.classes.size
    ++ ", cached_functions: " ++ toString m.functions.size
    ++ ", property_extensions: " ++ toString t.propertyExtensions.length
    ++ ", method_extensions: " ++ toString t.methodExtensions.length
    ++ ", return_type_extensions: " ++ toString t.returnExtensions.size ++ " \x7d"

end SymbolTable

end PhpCheck
