/-
  PhpCheck/Decimal/Shortest.lean
  ==============================
  **Shortest decimals** — of the decimals that round to a given floating-point
  value, one with the fewest digits, and of those the nearest.  Where the value
  lies halfway between two of them, the writer says which one it takes (`Tie`).

  The reals that round to `m · 2^e` form an interval, whose ends belong to it
  iff `m` is even.  A decimal with fewer digits lies on a coarser grid of
  multiples of a power of ten, so the search takes the grids from the coarsest
  on and stops at the first that meets the interval; on a grid only the two
  neighbours of the value have to be tried, since if any point of the grid lies
  in the interval, one of them does.
-/
import PhpCheck.Decimal.Binary64

namespace PhpCheck.Binary64

structure Decimal where
  digits : Nat
  exponent : Int
deriving DecidableEq, Repr

/-- Which of two decimals is taken that are equally near: the greater, or the one whose last
    digit is even. -/
inductive Tie where
  | greater
  | even
deriving DecidableEq, Repr

/-- Whether of two neighbours on a grid, the smaller of which is its `below`-th point, the
    smaller is taken. -/
def Tie.takesLess (tie : Tie) (below : Nat) : Bool :=
  match tie with
  | .greater => false
  | .even => below % 2 == 0

/-- The interval of reals that round to a positive value, in units of `1 / unit`: the value
    is `value / unit`, the ends are `low / unit` and `high / unit`. -/
structure Neighbourhood where
  unit : Nat
  low : Nat
  value : Nat
  high : Nat
  closed : Bool
deriving DecidableEq, Repr

/-- The reals that round to `mantissa · 2^exponent`.  Below the least mantissa of a binade
    the neighbours lie twice as close. -/
def Neighbourhood.of (mantissa : Nat) (exponent : Int) : Neighbourhood :=
  let scale := Nat.pow 2 exponent.toNat
  let narrow := 2 * mantissa == mantissaBound && decide (leastExponent < exponent)
  { unit := 4 * denominator exponent
    low := (4 * mantissa - if narrow then 1 else 2) * scale
    value := 4 * mantissa * scale
    high := (4 * mantissa + 2) * scale
    closed := mantissa % 2 == 0 }

/-- Whether `count` steps of `num / den` lie in the interval. -/
def Neighbourhood.holds (i : Neighbourhood) (count num den : Nat) : Bool :=
  let x := count * num * i.unit
  if i.closed then decide (i.low * den ≤ x) && decide (x ≤ i.high * den)
  else decide (i.low * den < x) && decide (x < i.high * den)

/-- The point of the grid of multiples of `10^g` that is in the interval and nearest to its
    value, if the grid meets the interval. -/
def Neighbourhood.onGrid? (i : Neighbourhood) (tie : Tie) (g : Int) : Option Decimal :=
  let num := Nat.pow 10 g.toNat
  let den := Nat.pow 10 (-g).toNat
  let below := i.value * den / (num * i.unit)
  let twice := 2 * (i.value * den)
  let middle := (2 * below + 1) * (num * i.unit)
  let nearer := if twice < middle ∨ twice = middle ∧ tie.takesLess below
    then [below, below + 1] else [below + 1, below]
  (nearer.find? fun count => i.holds count num den).map fun count => ⟨count, g⟩

/-- An exponent `g` such that the value is at most `10^g`, and not by much. -/
def Neighbourhood.top (i : Neighbourhood) : Int :=
  if i.unit ≤ i.value then digitCount (i.value / i.unit)
  else 1 - (digitCount (i.unit / i.value) : Int)

/-- The shortest decimal in the interval: the first hit on the grids from the coarsest on.
    Twenty grids reach past the seventeenth digit, where there always is one. -/
def Neighbourhood.shortest (i : Neighbourhood) (tie : Tie) : Decimal :=
  ((List.range 20).findSome? fun n => i.onGrid? tie (i.top - Int.ofNat n)).getD ⟨0, 0⟩

/-- The shortest decimal that reads back as `mantissa · 2^exponent`. -/
def shortest (tie : Tie) (mantissa : Nat) (exponent : Int) : Decimal :=
  if mantissa = 0 then ⟨0, 0⟩ else (Neighbourhood.of mantissa exponent).shortest tie

end PhpCheck.Binary64
