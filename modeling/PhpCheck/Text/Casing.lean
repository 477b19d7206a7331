/-
  PhpCheck/Text/Casing.lean
  =========================
  **Names that differ in case only** — methods, functions and keywords are told
  apart without regard to the case of ASCII letters; every other letter keeps
  its case.

  `lowercase` is the representative that such names share, and `sameName` is
  equality of representatives, hence an equivalence.
-/

namespace PhpCheck.Text

def lowercase (s : String) : String := String.ofList (s.toList.map Char.toLower)

/-- Whether two names are equal up to the case of ASCII letters. -/
def sameName (a b : String) : Bool := lowercase a == lowercase b

@[simp] theorem sameName_self (a : String) : sameName a a := by simp [sameName]

theorem sameName_comm (a b : String) : sameName a b = sameName b a := by
  simp [sameName, Bool.beq_comm]

theorem sameName_trans {a b c : String} (hab : sameName a b) (hbc : sameName b c) :
    sameName a c := by
  simp_all [sameName]

/-- The name without the backslashes at its start: a name that is written from the
    global namespace is the name itself. -/
def withoutRoot (name : String) : String :=
  String.ofList (name.toList.dropWhile (· == '\\'))

end PhpCheck.Text
