/-
  PhpCheck/Text/Blank.lean
  ========================
  **White space** — the code points with the Unicode property `White_Space`,
  and the text that is left when they are taken off both ends.

  Core's `Char.isWhitespace` knows four of these code points; `isBlank` has the
  whole property (`isBlank_of_isWhitespace`).  Trimming works on lists of
  characters, and what it leaves has no blank at either end.
-/

namespace PhpCheck.Text

/-- The ranges of the property `White_Space`, first and last code point. -/
def blankRanges : List (Nat × Nat) :=
  [(0x9, 0xD), (0x20, 0x20), (0x85, 0x85), (0xA0, 0xA0), (0x1680, 0x1680), (0x2000, 0x200A),
    (0x2028, 0x2029), (0x202F, 0x202F), (0x205F, 0x205F), (0x3000, 0x3000)]

def isBlank (c : Char) : Bool :=
  blankRanges.any fun r => decide (r.1 ≤ c.toNat) && decide (c.toNat ≤ r.2)

theorem isBlank_of_isWhitespace {c : Char} (h : c.isWhitespace) : isBlank c := by
  simp only [Char.isWhitespace, Bool.or_eq_true, decide_eq_true_eq] at h
  rcases h with ((h | h) | h) | h <;> subst h <;> decide

def trimStart (cs : List Char) : List Char := cs.dropWhile isBlank

def trimEnd (cs : List Char) : List Char := (cs.reverse.dropWhile isBlank).reverse

def trim (cs : List Char) : List Char := trimEnd (trimStart cs)

theorem trimStart_cons {c : Char} (h : isBlank c = false) (cs : List Char) :
    trimStart (c :: cs) = c :: cs := by
  simp [trimStart, h]

theorem trimEnd_concat {c : Char} (h : isBlank c = false) (cs : List Char) :
    trimEnd (cs ++ [c]) = cs ++ [c] := by
  simp [trimEnd, h]

theorem isBlank_of_head?_trimStart {c : Char} {cs : List Char}
    (h : (trimStart cs).head? = some c) : isBlank c = false := by
  have hfirst := List.head?_dropWhile_not isBlank cs
  unfold trimStart at h
  rwa [h] at hfirst

theorem isBlank_of_getLast?_trimEnd {c : Char} {cs : List Char}
    (h : (trimEnd cs).getLast? = some c) : isBlank c = false := by
  rw [trimEnd, List.getLast?_reverse] at h
  exact isBlank_of_head?_trimStart h

theorem trimStart_eq_self {cs : List Char} (h : ∀ c, cs.head? = some c → isBlank c = false) :
    trimStart cs = cs := by
  cases cs with
  | nil => rfl
  | cons c rest => exact trimStart_cons (h c rfl) rest

theorem trimEnd_eq_self {cs : List Char} (h : ∀ c, cs.getLast? = some c → isBlank c = false) :
    trimEnd cs = cs := by
  cases hlast : cs.getLast? with
  | none =>
    rw [List.getLast?_eq_none_iff.mp hlast]
    rfl
  | some c =>
    obtain ⟨front, rfl⟩ := List.getLast?_eq_some_iff.mp hlast
    exact trimEnd_concat (h c hlast) front

/-- A text without blanks stays as it is. -/
theorem trim_eq_self {cs : List Char} (h : ∀ c ∈ cs, isBlank c = false) : trim cs = cs := by
  have hstart : trimStart cs = cs := by
    apply trimStart_eq_self
    intro c hc
    exact h c (List.mem_of_head? hc)
  rw [trim, hstart]
  apply trimEnd_eq_self
  intro c hc
  exact h c (List.mem_of_getLast? hc)

theorem trimEnd_isPrefix (cs : List Char) : trimEnd cs <+: cs := by
  rw [← List.reverse_suffix, trimEnd, List.reverse_reverse]
  exact List.dropWhile_suffix isBlank

theorem trim_isInfix (cs : List Char) : trim cs <:+: cs :=
  (trimEnd_isPrefix _).isInfix.trans (List.dropWhile_suffix isBlank).isInfix

theorem trim_trim (cs : List Char) : trim (trim cs) = trim cs := by
  have hstart : trimStart (trim cs) = trim cs := by
    apply trimStart_eq_self
    intro c hc
    obtain ⟨others, hothers⟩ := List.head?_eq_some_iff.mp hc
    obtain ⟨rest, hrest⟩ := trimEnd_isPrefix (trimStart cs)
    have hhead : (trimStart cs).head? = some c := by
      unfold trim at hothers
      rw [← hrest, hothers]
      rfl
    exact isBlank_of_head?_trimStart hhead
  rw [trim, hstart]
  apply trimEnd_eq_self
  intro c hc
  exact isBlank_of_getLast?_trimEnd hc

end PhpCheck.Text
