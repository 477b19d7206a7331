/-
  PhpCheck/Decimal/Binary64.lean
  ==============================
  **Floating-point values** — the numbers `± m · 2^e` with `m < 2^53` and
  `-1074 ≤ e ≤ 971`, the two infinities and the value that is no number, with
  the one operation everything else is made of: rounding a fraction of naturals
  to the nearest such number.

  A finite value is written with the greatest mantissa that its exponent
  admits, so that equal numbers are equal terms; zero has the least exponent.
  All arithmetic is on naturals and exact.
-/

namespace PhpCheck

/-- A binary floating-point value with 53 significant bits. -/
inductive Binary64 where
  | notANumber
  | infinite (negative : Bool)
  | finite (negative : Bool) (mantissa : Nat) (exponent : Int)
deriving DecidableEq, Repr

namespace Binary64

def leastExponent : Int := -1074

def greatestExponent : Int := 971

/-- Mantissas are smaller than this: they have 53 bits. -/
def mantissaBound : Nat := 0x20000000000000

def zero (negative : Bool) : Binary64 := .finite negative 0 leastExponent

/-! ### Rounding a quotient -/

/-- The integer nearest to `num / den`; a half goes to the even neighbour. -/
def nearestInt (num den : Nat) : Nat :=
  let q := num / den
  let r := num % den
  if 2 * r < den then q
  else if den < 2 * r then q + 1
  else q + q % 2

/-- The greatest `k` with `2^k ≤ num / den`, for positive `num` and `den`. -/
def magnitude (num den : Nat) : Int :=
  let k : Int := (num.log2 : Int) - (den.log2 : Int)
  if den * Nat.pow 2 k.toNat ≤ num * Nat.pow 2 (-k).toNat then k else k - 1

/-- The finite value `± mantissa · 2^exponent`, or infinity above the greatest one. -/
def pack (negative : Bool) (mantissa : Nat) (exponent : Int) : Binary64 :=
  if greatestExponent < exponent then .infinite negative
  else .finite negative mantissa exponent

def nearest (negative : Bool) (num den : Nat) : Binary64 :=
  if num = 0 then zero negative
  else
    let e := max (magnitude num den - 52) leastExponent
    let m := nearestInt (num * Nat.pow 2 (-e).toNat) (den * Nat.pow 2 e.toNat)
    if m < mantissaBound then pack negative m e else pack negative (m / 2) (e + 1)

/-! ### Fractions of a value -/

/-- The numerator of `mantissa · 2^exponent` as a fraction. -/
def numerator (mantissa : Nat) (exponent : Int) : Nat :=
  mantissa * Nat.pow 2 exponent.toNat

def denominator (exponent : Int) : Nat := Nat.pow 2 (-exponent).toNat

/-! ### Decimals -/

/-- How many decimal digits a natural has; zero has one. -/
def digitCount (n : Nat) : Nat := (Nat.toDigits 10 n).length

/-- The value nearest to `± digits · 10^exponent`.  Decimals far outside the range are
    settled by their digit count, before a power of ten is formed. -/
def ofDecimal (negative : Bool) (digits : Nat) (exponent : Int) : Binary64 :=
  if digits = 0 then zero negative
  else
    let top : Int := digitCount digits + exponent
    if 310 < top then .infinite negative
    else if top < -330 then zero negative
    else nearest negative (digits * Nat.pow 10 exponent.toNat) (Nat.pow 10 (-exponent).toNat)

end Binary64

end PhpCheck
