/-
  PhpCheck/Json/Number.lean
  =========================
  **Numbers in documents** — which value a numeral has.

  Digits are gathered into a significand of at most 64 bits; from the first
  digit on that does not fit, digits before the point only raise the exponent
  and digits after it are dropped.  A numeral that is an integer, fits, and is
  not minus zero is an integer.  Every other one is a float, in two roundings:
  the significand to the nearest value, then its product or quotient with a
  power of ten.  A result that would be infinite is out of range.
-/
import PhpCheck.Json.Value

namespace PhpCheck

namespace Binary64

def times : Binary64 → Binary64 → Binary64
  | .finite n m e, .finite _ m' e' =>
      nearest n (numerator m e * numerator m' e') (denominator e * denominator e')
  | x, _ => x

def dividedBy : Binary64 → Binary64 → Binary64
  | .finite n m e, .finite _ m' e' =>
      nearest n (numerator m e * denominator e') (denominator e * numerator m' e')
  | x, _ => x

def powerOfTen (n : Nat) : Binary64 := nearest false (Nat.pow 10 n) 1

def isZero : Binary64 → Bool
  | .finite _ 0 _ => true
  | _ => false

def isInfinite : Binary64 → Bool
  | .infinite _ => true
  | _ => false

/-- Divides by `10^n`, in steps of at most `10^308`. -/
def shrink (x : Binary64) (n : Nat) : Binary64 :=
  if n ≤ 308 then x.dividedBy (powerOfTen n)
  else if x.isZero then x
  else shrink (x.dividedBy (powerOfTen 308)) (n - 308)
termination_by n

/-- The value of `± significand · 10^exponent` in two roundings, unless out of range. -/
def scaled? (negative : Bool) (significand : Nat) (exponent : Int) : Option Binary64 :=
  let x := nearest negative significand 1
  if exponent < 0 then some (shrink x (-exponent).toNat)
  else if exponent ≤ 308 then
    let y := x.times (powerOfTen exponent.toNat)
    if y.isInfinite then none else some y
  else if x.isZero then some x
  else none

end Binary64

namespace Json

structure Numeral where
  negative : Bool
  whole : List Char
  places : Option (List Char)
  exponent : Option (Bool × List Char)
deriving Repr

/-- Significands are smaller than this: they have 64 bits. -/
def significandBound : Nat := 0x10000000000000000

/-- Appends digits to a significand while it stays below the bound; also gives how many digits
    were appended. -/
def gather (significand : Nat) : List Char → Nat × Nat
  | [] => (significand, 0)
  | c :: rest =>
    let next := 10 * significand + (c.toNat - 48)
    if next < significandBound then
      let (result, count) := gather next rest
      (result, count + 1)
    else (significand, 0)

def greatestWrittenExponent : Nat := 0x7FFFFFFF

/-- The float that `± significand · 10^shift` and a written exponent name. -/
def float? (negative : Bool) (significand : Nat) (shift : Int)
    (exponent : Option (Bool × List Char)) : Option Binary64 :=
  match exponent with
  | none => Binary64.scaled? negative significand shift
  | some (down, digits) =>
    let n := Binary64.digitsValue digits
    if n ≤ greatestWrittenExponent then
      Binary64.scaled? negative significand (if down then shift - n else shift + n)
    else if down || significand == 0 then some (Binary64.zero negative)
    else none

def Numeral.value (n : Numeral) : Json :=
  let (significand, used) := gather 0 n.whole
  let dropped := n.whole.length - used
  let ofFloat : Option Binary64 → Json := fun x => (x.map Json.float).getD .unreadable
  match n.places, n.exponent with
  | none, none =>
    if dropped = 0 then
      if n.negative then
        if 0 < significand ∧ significand ≤ signedBound then .int (-(significand : Int))
        else .float (Binary64.nearest true significand 1)
      else .int significand
    else ofFloat (float? n.negative significand dropped none)
  | places, exponent =>
    let (significand, placed) := gather significand (places.getD [])
    ofFloat (float? n.negative significand ((dropped : Int) - placed) exponent)

end Json

end PhpCheck
