/-
  PhpCheck/Json/Value.lean
  ========================
  **JSON values** — the trees that documents describe, and their text.

  Integers in 64 bits, signed or not, are kept apart from all other numbers,
  because a constant of a class is an integer or a float by the way it is
  written.  A well-formed text may still name no value: its number lies out of
  range, or its string holds half of a surrogate pair.  Such a part is
  `unreadable`; a reader that skips it is not disturbed, one that needs it fails.
-/
import PhpCheck.Decimal.Literal
import PhpCheck.Text.Joined

namespace PhpCheck

/-- A JSON value.  The members of an object stand in the order of the text. -/
inductive Json where
  | null
  | bool (value : Bool)
  | int (value : Int)
  | float (value : Binary64)
  | string (value : String)
  | array (items : List Json)
  | object (members : List (String × Json))
  | unreadable

namespace Json

/-- Integers with sign lie between minus this, included, and this: they have 64 bits. -/
def signedBound : Nat := 0x8000000000000000

/-! ### Text -/

def hexDigits (n : Nat) : List Char :=
  [n / 4096 % 16, n / 256 % 16, n / 16 % 16, n % 16].map Nat.digitChar

/-- One character of a string: itself, or an escape if it is a quote, a backslash, a control
    character or not ASCII; beyond the basic plane two escapes. -/
def escapeChar (c : Char) : List Char :=
  let n := c.toNat
  if c = '"' ∨ c = '\\' then ['\\', c]
  else if 0x20 ≤ n ∧ n < 0x7F then [c]
  else if n < 0x10000 then '\\' :: 'u' :: hexDigits n
  else '\\' :: 'u' :: hexDigits (0xD800 + (n - 0x10000) / 0x400)
    ++ '\\' :: 'u' :: hexDigits (0xDC00 + (n - 0x10000) % 0x400)

/-- A string between quotes. -/
def quoted (s : String) : String :=
  String.ofList ('"' :: s.toList.flatMap escapeChar ++ ['"'])

mutual

/-- The text of a value, without blanks and in ASCII.  Of two decimals that are equally near to
    a float the even one is written: as reading rounds twice, the two need not name one value. -/
def text : Json → String
  | .null => "null"
  | .bool value => if value then "true" else "false"
  | .int value => toString value
  | .float value => value.textBy .even
  | .string value => quoted value
  | .array items => "[" ++ Text.joined "," (itemTexts items) ++ "]"
  | .object members => "\x7b" ++ Text.joined "," (memberTexts members) ++ "\x7d"
  | .unreadable => "null"

def itemTexts : List Json → List String
  | [] => []
  | item :: rest => text item :: itemTexts rest

def memberTexts : List (String × Json) → List String
  | [] => []
  | (key, value) :: rest => (quoted key ++ ":" ++ text value) :: memberTexts rest

end

/-! ### Depth and readability -/

mutual

def depth : Json → Nat
  | .array items => itemDepth items + 1
  | .object members => memberDepth members + 1
  | _ => 0

def itemDepth : List Json → Nat
  | [] => 0
  | item :: rest => max (depth item) (itemDepth rest)

def memberDepth : List (String × Json) → Nat
  | [] => 0
  | (_, value) :: rest => max (depth value) (memberDepth rest)

end

mutual

def readable : Json → Bool
  | .unreadable => false
  | .array items => itemsReadable items
  | .object members => membersReadable members
  | _ => true

def itemsReadable : List Json → Bool
  | [] => true
  | item :: rest => readable item && itemsReadable rest

def membersReadable : List (String × Json) → Bool
  | [] => true
  | (_, value) :: rest => readable value && membersReadable rest

end

end Json

end PhpCheck
