/-
  PhpCheck/Text/Joined.lean
  =========================
  **Lists in text** — items with a separator between neighbours, the shape of
  argument lists, parameter lists and arrays.
-/

namespace PhpCheck.Text

/-- The items in order, with the separator between neighbours. -/
def joined (separator : String) : List String → String
  | [] => ""
  | [item] => item
  | item :: next :: rest => item ++ separator ++ joined separator (next :: rest)

@[simp] theorem joined_nil (separator : String) : joined separator [] = "" := rfl

@[simp] theorem joined_singleton (separator item : String) :
    joined separator [item] = item := rfl

@[simp] theorem joined_cons_cons (separator item next : String) (rest : List String) :
    joined separator (item :: next :: rest)
      = item ++ separator ++ joined separator (next :: rest) := rfl

end PhpCheck.Text
