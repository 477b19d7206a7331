/-
  PhpCheck/Json/Reader.lean
  =========================
  **Reading JSON text** — one value, with blanks around it and nothing else.

  The reader works on the list of characters and hands on the rest of the text
  after each part.  Every step takes at least one character, so the length of
  the text bounds the number of steps and is used as the measure of the
  recursion.
-/
import PhpCheck.Json.Number

namespace PhpCheck.Json.Reader

/-! ### Blanks and numerals -/

def isJsonBlank (c : Char) : Bool := c == ' ' || c == '\n' || c == '\t' || c == '\r'

def skipBlanks (cs : List Char) : List Char := cs.dropWhile isJsonBlank

/-- Digits before the point: one zero alone, or digits that start with no zero. -/
def whole? (cs : List Char) : Option (List Char × List Char) :=
  let (digits, rest) := Binary64.spanDigits cs
  match digits with
  | [] => none
  | ['0'] => some (digits, rest)
  | '0' :: _ => none
  | _ => some (digits, rest)

def digits? (cs : List Char) : Option (List Char × List Char) :=
  let (digits, rest) := Binary64.spanDigits cs
  if digits.isEmpty then none else some (digits, rest)

def places? : List Char → Option (Option (List Char) × List Char)
  | '.' :: rest => (digits? rest).map fun (digits, rest) => (some digits, rest)
  | rest => some (none, rest)

/-- The exponent, if there is one: whether it is negative, and its digits. -/
def writtenExponent? : List Char → Option (Option (Bool × List Char) × List Char)
  | c :: rest =>
    if c = 'e' ∨ c = 'E' then
      let (negative, rest) := Binary64.spanSign rest
      (digits? rest).map fun (digits, rest) => (some (negative, digits), rest)
    else some (none, c :: rest)
  | [] => some (none, [])

def numeral? (cs : List Char) : Option (Numeral × List Char) := do
  let (negative, cs) := match cs with
    | '-' :: rest => (true, rest)
    | rest => (false, rest)
  let (whole, cs) ← whole? cs
  let (places, cs) ← places? cs
  let (exponent, cs) ← writtenExponent? cs
  pure (⟨negative, whole, places, exponent⟩, cs)

/-! ### Strings -/

/-- A part of a string: a character, or one half of a surrogate pair. -/
inductive Piece where
  | char (value : Char)
  | half (unit : Nat)
deriving DecidableEq, Repr

def hexValue? (c : Char) : Option Nat :=
  if c.isDigit then some (c.toNat - 48)
  else if 'a' ≤ c ∧ c ≤ 'f' then some (c.toNat - 87)
  else if 'A' ≤ c ∧ c ≤ 'F' then some (c.toNat - 55)
  else none

def unit? (a b c d : Char) : Option Piece := do
  let n := 4096 * (← hexValue? a) + 256 * (← hexValue? b) + 16 * (← hexValue? c)
    + (← hexValue? d)
  pure (if 0xD800 ≤ n ∧ n ≤ 0xDFFF then .half n else .char (Char.ofNat n))

def escaped? : Char → Option Char
  | '"' => some '"'
  | '\\' => some '\\'
  | '/' => some '/'
  | 'b' => some '\x08'
  | 'f' => some '\x0c'
  | 'n' => some '\n'
  | 'r' => some '\r'
  | 't' => some '\t'
  | _ => none

def pieces? : List Char → Option (List Piece × List Char)
  | [] => none
  | '"' :: rest => some ([], rest)
  | '\\' :: 'u' :: a :: b :: c :: d :: rest => do
    let piece ← unit? a b c d
    let (pieces, rest) ← pieces? rest
    pure (piece :: pieces, rest)
  | '\\' :: c :: rest => do
    let c ← escaped? c
    let (pieces, rest) ← pieces? rest
    pure (.char c :: pieces, rest)
  | c :: rest =>
    if c = '\\' ∨ c.toNat < 0x20 then none
    else do
      let (pieces, rest) ← pieces? rest
      pure (.char c :: pieces, rest)

/-- The characters of a string, if its halves form pairs. -/
def assemble? : List Piece → Option (List Char)
  | [] => some []
  | .char c :: rest => (assemble? rest).map (c :: ·)
  | .half high :: .half low :: rest =>
    if high < 0xDC00 ∧ 0xDC00 ≤ low then
      (assemble? rest).map
        (Char.ofNat (0x10000 + 0x400 * (high - 0xD800) + (low - 0xDC00)) :: ·)
    else none
  | .half _ :: _ => none

/-- A string after its opening quote; no string if it has an unpaired half. -/
def string? (cs : List Char) : Option (Option String × List Char) :=
  (pieces? cs).map fun (pieces, rest) => ((assemble? pieces).map String.ofList, rest)

/-! ### Values -/

mutual

def value? : Nat → List Char → Option (Json × List Char)
  | 0, _ => none
  | fuel + 1, cs =>
    match skipBlanks cs with
    | 'n' :: 'u' :: 'l' :: 'l' :: rest => some (.null, rest)
    | 't' :: 'r' :: 'u' :: 'e' :: rest => some (.bool true, rest)
    | 'f' :: 'a' :: 'l' :: 's' :: 'e' :: rest => some (.bool false, rest)
    | '"' :: rest => (string? rest).map fun (s, rest) =>
          ((s.map Json.string).getD .unreadable, rest)
    | '[' :: rest =>
      match skipBlanks rest with
      | ']' :: rest => some (.array [], rest)
      | rest => (items? fuel rest).map fun (items, rest) => (.array items, rest)
    | '\x7b' :: rest =>
      match skipBlanks rest with
      | '\x7d' :: rest => some (.object [], rest)
      | rest => (members? fuel rest).map fun (members, rest) =>
          ((members.map Json.object).getD .unreadable, rest)
    | rest => (numeral? rest).map fun (n, rest) => (n.value, rest)

/-- The items of an array, of which there is at least one, up to its closing bracket. -/
def items? : Nat → List Char → Option (List Json × List Char)
  | 0, _ => none
  | fuel + 1, cs => do
    let (item, rest) ← value? fuel cs
    match skipBlanks rest with
    | ',' :: rest =>
      let (items, rest) ← items? fuel rest
      pure (item :: items, rest)
    | ']' :: rest => pure ([item], rest)
    | _ => none

/-- The members of an object, of which there is at least one, up to its closing brace; no
    members if a key has an unpaired half. -/
def members? : Nat → List Char → Option (Option (List (String × Json)) × List Char)
  | 0, _ => none
  | fuel + 1, cs => do
    let .cons '"' rest := skipBlanks cs | none
    let (key, rest) ← string? rest
    let .cons ':' rest := skipBlanks rest | none
    let (value, rest) ← value? fuel rest
    let member : Option (String × Json) := key.map fun key => (key, value)
    match skipBlanks rest with
    | ',' :: rest =>
      let (members, rest) ← members? fuel rest
      pure (member.bind fun member => members.map (member :: ·), rest)
    | '\x7d' :: rest => pure (member.map fun member => [member], rest)
    | _ => none

end

end PhpCheck.Json.Reader

namespace PhpCheck.Json

def ofText? (text : String) : Option Json :=
  let cs := text.toList
  match Reader.value? (cs.length + 1) cs with
  | some (value, rest) => if (Reader.skipBlanks rest).isEmpty then some value else none
  | none => none

end PhpCheck.Json
