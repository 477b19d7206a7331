/-
  PhpCheck/Decimal/Literal.lean
  =============================
  **Floating-point numbers in text** — how a value is written and which texts
  are read.

  Writing takes the shortest decimal, in code the greater of two equally near
  ones; documents take the even one (`textBy`).  A number below `10^16` and not
  below `10^-4` is written with all its places and at least one of them after
  the point (`0.0001`, `1.0`); any other with one digit before the point and an
  exponent (`1e16`, `1.5e-7`).

  Reading takes an optional sign and then a word for infinity or no number, or
  digits around an optional point with an optional exponent, where one side of
  the point may be empty.  The result is the value nearest to the decimal.
-/
import PhpCheck.Decimal.Shortest

namespace PhpCheck.Binary64

/-! ### Writing -/

def digitsText (n : Nat) : List Char := Nat.toDigits 10 n

/-- All places of a decimal whose point stands after `point` digits. -/
def positional (digits : List Char) (point : Int) : List Char :=
  if point ≤ 0 then '0' :: '.' :: (List.replicate (-point).toNat '0' ++ digits)
  else
    let whole := digits.take point.toNat
    let places := digits.drop point.toNat
    whole ++ List.replicate (point.toNat - digits.length) '0'
      ++ '.' :: (if places.isEmpty then ['0'] else places)

/-- One digit, the others after the point, and the exponent of the first digit. -/
def scientific (digits : List Char) (exponent : Int) : List Char :=
  let mantissa := match digits with
    | [] => []
    | [d] => [d]
    | d :: rest => d :: '.' :: rest
  let power := if exponent < 0 then '-' :: digitsText (-exponent).toNat
    else digitsText exponent.toNat
  mantissa ++ 'e' :: power

def Decimal.text (d : Decimal) : List Char :=
  let digits := digitsText d.digits
  let point : Int := digits.length + d.exponent
  if d.digits = 0 then ['0', '.', '0']
  else if -4 < point ∧ point ≤ 16 then positional digits point
  else scientific digits (point - 1)

def textBy (tie : Tie) : Binary64 → String
  | .notANumber => "NaN"
  | .infinite negative => if negative then "-inf" else "inf"
  | .finite negative m e =>
      let magnitude := String.ofList (shortest tie m e).text
      if negative then "-" ++ magnitude else magnitude

/-- The text of a value in code: of equally near decimals the greater. -/
def text (x : Binary64) : String := x.textBy .greater

/-! ### Reading -/

def digitsValue (cs : List Char) : Nat := cs.foldl (fun n c => 10 * n + (c.toNat - 48)) 0

def spanDigits (cs : List Char) : List Char × List Char :=
  (cs.takeWhile Char.isDigit, cs.dropWhile Char.isDigit)

/-- Splits an optional sign off a text; the first part says whether it was a minus. -/
def spanSign : List Char → Bool × List Char
  | '-' :: rest => (true, rest)
  | '+' :: rest => (false, rest)
  | cs => (false, cs)

/-- The exponent that the end of a number states: none at all, or a marked one with at
    least one digit. -/
def exponent? : List Char → Option Int
  | [] => some 0
  | c :: rest =>
    let (negative, digits) := spanSign rest
    if (c == 'e' || c == 'E') && !digits.isEmpty && digits.all Char.isDigit then
      let n : Int := digitsValue digits
      some (if negative then -n else n)
    else none

/-- Reads digits around an optional point, with an optional exponent. -/
def unsigned? (negative : Bool) (cs : List Char) : Option Binary64 :=
  let (whole, rest) := spanDigits cs
  let (places, rest) := match rest with
    | '.' :: rest => spanDigits rest
    | rest => ([], rest)
  if whole.isEmpty && places.isEmpty then none
  else do
    let exponent ← exponent? rest
    pure (ofDecimal negative (digitsValue (whole ++ places)) (exponent - places.length))

def ofText? (text : String) : Option Binary64 :=
  let (negative, cs) := spanSign text.toList
  let word := String.ofList (cs.map Char.toLower)
  if word = "inf" ∨ word = "infinity" then some (.infinite negative)
  else if word = "nan" then some .notANumber
  else unsigned? negative cs

end PhpCheck.Binary64
