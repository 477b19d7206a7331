/-
  PhpCheck/Types/Basic.lean
  =========================
  **Types** — a kind and whether null is allowed beside it.

  There are no unions: where two branches meet with different kinds, nothing is
  known but nullability, and the kind is `mixed`.  Null itself is always
  nullable (`PhpType.null_nullable`); the type says so.
-/

namespace PhpCheck

/-- What values of a type are, null aside. -/
inductive Kind where
  | mixed
  | boolean
  | integer
  | float
  | string
  | array
  | callable
  | null
  | object (className : String)
  /-- The class a method is called on, for a method that the named class declares. -/
  | static (className : String)
deriving DecidableEq, Repr

/-- A kind, and whether null is allowed beside it. -/
structure PhpType where
  kind : Kind
  nullable : Bool
  null_nullable : kind = .null → nullable = true := by simp
deriving DecidableEq, Repr

namespace PhpType

/-- The type of a kind; of null the nullable one. -/
def of (kind : Kind) (nullable : Bool) : PhpType :=
  ⟨kind, nullable || decide (kind = .null), by simp +contextual⟩

@[simp] theorem kind_of (kind : Kind) (nullable : Bool) : (of kind nullable).kind = kind := rfl

@[simp] theorem nullable_of (kind : Kind) (nullable : Bool) :
    (of kind nullable).nullable = (nullable || decide (kind = .null)) := rfl

theorem eq_of_kind_nullable {a b : PhpType} (hk : a.kind = b.kind)
    (hn : a.nullable = b.nullable) : a = b := by
  cases a; cases b; simp_all

/-- A type is the type of its kind with its own nullability. -/
theorem of_kind_nullable (t : PhpType) : of t.kind t.nullable = t := by
  refine eq_of_kind_nullable (kind_of _ _) ?_
  by_cases h : t.kind = .null
  · simp [h, t.null_nullable h]
  · simp [h]

/-- Nothing is known, or nothing but that null is not allowed. -/
def mixed (nullable : Bool := false) : PhpType := of .mixed nullable

def object (className : String) (nullable : Bool := false) : PhpType :=
  of (.object className) nullable

def null : PhpType := of .null true

def className? (t : PhpType) : Option String :=
  match t.kind with
  | .object name | .static name => some name
  | _ => none

def isMixed (t : PhpType) : Bool := decide (t.kind = .mixed)

/-- Whether values are instances of the class a method is called on. -/
def isStatic (t : PhpType) : Bool :=
  match t.kind with
  | .static _ => true
  | _ => false

def isScalar (t : PhpType) : Bool :=
  match t.kind with
  | .integer | .float | .string | .boolean => true
  | _ => false

def orNull (t : PhpType) : PhpType := of t.kind true

/-! ### The join -/

/-- The least type above both: where branches meet, a kind that both have stays, and null is
    allowed if either allows it. -/
def join (a b : PhpType) : PhpType :=
  of (if a.kind = b.kind then a.kind else .mixed) (a.nullable || b.nullable)

theorem join_self (a : PhpType) : a.join a = a := by
  simpa [join] using of_kind_nullable a

theorem join_comm (a b : PhpType) : a.join b = b.join a := by
  by_cases h : a.kind = b.kind
  · simp [join, h, Bool.or_comm]
  · simp [join, h, Ne.symm h, Bool.or_comm]

/-! ### Acceptance -/

/-- Whether a kind that is not mixed and not null fits where another one is declared, classes
    by name alone. -/
def Kind.fits : Kind → Kind → Bool
  | .object declared, .static given | .static declared, .object given => declared == given
  | .float, .integer => true
  | .callable, .string | .callable, .array => true
  | declared, given => declared == given

/-- Whether a value of the given type can be passed where `declared` is declared.  Subclasses
    are not known here. -/
def accepts (declared given : PhpType) : Bool :=
  if declared.isMixed || given.isMixed then true
  else if given.kind = .null then declared.nullable
  else Kind.fits declared.kind given.kind

theorem accepts_self (t : PhpType) : t.accepts t = true := by
  unfold accepts
  split
  · rfl
  · split
    · rename_i h; exact t.null_nullable h
    · cases t.kind <;> simp [Kind.fits]

end PhpType

end PhpCheck
