/-
  PhpCheck/Symbols/Assembly.lean
  ==============================
  **Putting a class together** — the members of a declaration, and what traits,
  the parent and interfaces add to them.

  A member that a class has already is never replaced: its own members come
  first, then those of its traits, its parent and its interfaces, in this order.
  Private members stay with their class, except that those of a trait become
  members of the class that uses it.
-/
import PhpCheck.Symbols.Info

namespace PhpCheck

/-! ### Relative names -/

/-- What a kind says in a class: `self` and `static` name the class, `parent` its parent. -/
def Kind.inClass (kind : Kind) (className : String) (parent : Option String) : Kind :=
  match kind with
  | .object name =>
    if Text.sameName name "self" then .object className
    else if Text.sameName name "static" then .static className
    else if Text.sameName name "parent" then (parent.map Kind.object).getD .mixed
    else .object name
  | kind => kind

def PhpType.inClass (t : PhpType) (className : String) (parent : Option String) : PhpType :=
  .of (t.kind.inClass className parent) t.nullable

/-- What a kind in a trait says in a class that uses the trait. -/
def Kind.moved (kind : Kind) (traitName className : String) : Kind :=
  match kind with
  | .object name => .object (if name = traitName then className else name)
  | .static name => .static (if name = traitName then className else name)
  | kind => kind

def PhpType.moved (t : PhpType) (traitName className : String) : PhpType :=
  .of (t.kind.moved traitName className) t.nullable

/-! ### Members of a declaration -/

/-- A declared parameter, its type seen through `bind`; a variadic one can be left out. -/
def ParamDecl.info (p : ParamDecl) (bind : PhpType → PhpType) : ParamInfo :=
  { name := p.name, type := bind p.type, optional := p.optional || p.variadic,
    variadic := p.variadic, byRef := p.byRef }

/-- A declared method in its class; the methods of an interface are abstract. -/
def MethodDecl.info (m : MethodDecl) (c : ClassDecl) : MethodInfo :=
  let bind := fun t : PhpType => t.inClass c.name c.parent
  { declaringClass := c.name, name := m.name, visibility := m.visibility, isStatic := m.isStatic,
    isAbstract := m.isAbstract || decide (c.kind = .interface),
    params := m.params.map (·.info bind), variadic := m.variadic, result := bind m.result }

def PropertyDecl.info (p : PropertyDecl) (c : ClassDecl) : PropertyInfo :=
  { declaringClass := c.name, name := p.name, visibility := p.visibility, isStatic := p.isStatic,
    type := p.type.inClass c.name c.parent }

def FunctionDecl.info (f : FunctionDecl) (name : String) : Signature :=
  { name := name, params := f.params.map (·.info id), variadic := f.variadic, result := f.result }

/-- The class with the members that its declaration lists, of two for one name the later. -/
def ClassDecl.info (c : ClassDecl) : ClassInfo :=
  { name := c.name, kind := c.kind, declaredAbstract := c.isAbstract, parent := c.parent,
    methods := .ofList (c.methods.map fun m => (m.name, m.info c)),
    properties := .ofList (c.properties.map fun p => (p.name, p.info c)),
    constants := c.constants }

/-! ### Members from elsewhere -/

def MethodInfo.moved (m : MethodInfo) (traitName className : String) : MethodInfo :=
  { m with declaringClass := className, result := m.result.moved traitName className }

def PropertyInfo.moved (p : PropertyInfo) (traitName className : String) : PropertyInfo :=
  { p with declaringClass := className, type := p.type.moved traitName className }

namespace ClassInfo

/-- The class with the members of a trait that it has not itself, as members of its own. -/
def useTrait (c used : ClassInfo) : ClassInfo :=
  { c with
    methods := c.methods.extend (used.methods.filterMap fun _ m => some (m.moved used.name c.name))
    properties :=
      c.properties.extend (used.properties.filterMap fun _ p => some (p.moved used.name c.name)) }

/-- The class with the members and constants of another that it has not itself, private ones
    left out. -/
def inherit (c above : ClassInfo) : ClassInfo :=
  { c with
    methods := c.methods.extend
      (above.methods.filterMap fun _ m => if m.isPrivate then none else some m)
    properties := c.properties.extend
      (above.properties.filterMap fun _ p => if p.isPrivate then none else some p)
    constants := c.constants.extend above.constants }

def extendParent (c parent : ClassInfo) : ClassInfo :=
  { c with
    ancestors := c.ancestors ++ parent.name :: parent.ancestors
    interfaces := c.interfaces ++ parent.interfaces }.inherit parent

def implement (c interface : ClassInfo) : ClassInfo :=
  { c with interfaces := c.interfaces ++ interface.name :: interface.interfaces }.inherit interface

/-- The class with each interface listed where it stands first. -/
def withoutRepeats (c : ClassInfo) : ClassInfo := { c with interfaces := c.interfaces.eraseDups }

/-- The class with properties for names that have none. -/
def addProperties (c : ClassInfo) (ps : List PropertyInfo) : ClassInfo :=
  { c with properties := ps.foldl (fun m p => m.insertNew p.name p) c.properties }

/-- The class with methods for names that have none. -/
def addMethods (c : ClassInfo) (ms : List MethodInfo) : ClassInfo :=
  { c with methods := ms.foldl (fun map m => map.insertNew m.name m) c.methods }

end ClassInfo

end PhpCheck
