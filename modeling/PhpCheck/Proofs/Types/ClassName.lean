/-
  PhpCheck/Proofs/Types/ClassName.lean
  ====================================
  **Class names and keywords** — which names the reader of types takes for the
  name of a class, and which for a kind of its own.

  A class name is read up to blanks around it and backslashes before it
  (`className?`), and what is left is a class name again
  (`eq_of_className?`).  A keyword is looked for in the text as it
  stands, so a backslash hides one.
-/
import PhpCheck.Types.Text

namespace PhpCheck

variable {name : String} {cs : List Char}

/-! ### Class names -/

/-- The name of a class as seen from the global namespace. -/
structure IsClassName (name : String) : Prop where
  nonempty : name.toList ≠ []
  chars : ∀ c ∈ name.toList, c.isAlpha = true ∨ c.isDigit = true ∨ c = '_' ∨ c = '\\'
  start : ∀ c, name.toList.head? = some c → c.isDigit = false ∧ c ≠ '\\'
  ending : name.toList.getLast? ≠ some '\\'

theorem isClassNameChar_iff {c : Char} :
    isClassNameChar c = true ↔
      c.isAlpha = true ∨ c.isDigit = true ∨ c = '_' ∨ c = '\\' := by
  simp [isClassNameChar, Char.isAlphanum, or_assoc]

theorem isClassName_iff : isClassName name.toList = true ↔ IsClassName name := by
  cases hcs : name.toList with
  | nil =>
    constructor
    · intro h
      cases h
    · intro h
      exact absurd hcs h.nonempty
  | cons first rest =>
    simp only [isClassName, Bool.and_eq_true, Bool.not_eq_true', bne_iff_ne, List.all_eq_true,
      isClassNameChar_iff]
    constructor
    · rintro ⟨⟨⟨hdigit, hroot⟩, hending⟩, hchars⟩
      rw [← hcs] at hchars hending
      refine ⟨by simp [hcs], hchars, ?_, hending⟩
      intro c hc
      rw [hcs] at hc
      cases hc
      exact ⟨hdigit, hroot⟩
    · intro h
      have hstart := h.start first (by rw [hcs]; rfl)
      rw [← hcs]
      exact ⟨⟨⟨hstart.1, hstart.2⟩, h.ending⟩, h.chars⟩

theorem isBlank_of_isClassNameChar {c : Char} (h : isClassNameChar c = true) :
    Text.isBlank c = false := by
  have hbounds : 0x2F < c.toNat ∧ c.toNat < 0x7B := by
    rcases isClassNameChar_iff.mp h with halpha | hdigit | rfl | rfl
    · rcases Bool.or_eq_true_iff.mp halpha with hupper | hlower
      · have hrange : 0x41 ≤ c.toNat ∧ c.toNat ≤ 0x5A := of_decide_eq_true hupper
        omega
      · obtain ⟨hfirst, hlast⟩ := Bool.and_eq_true_iff.mp hlower
        have hfirst : 0x61 ≤ c.toNat := of_decide_eq_true hfirst
        have hlast : c.toNat ≤ 0x7A := of_decide_eq_true hlast
        omega
    · have hrange : 0x30 ≤ c.toNat ∧ c.toNat ≤ 0x39 := Char.isDigit_iff_toNat.mp hdigit
      omega
    · decide
    · decide
  rw [Text.isBlank, List.any_eq_false]
  intro r hr
  have hapart : r.2 ≤ 0x2F ∨ 0x7B ≤ r.1 := by
    revert r
    decide
  rw [Bool.and_eq_true, decide_eq_true_eq, decide_eq_true_eq]
  omega

theorem IsClassName.trim_eq (h : IsClassName name) : Text.trim name.toList = name.toList := by
  apply Text.trim_eq_self
  intro c hc
  exact isBlank_of_isClassNameChar (isClassNameChar_iff.mpr (h.chars c hc))

theorem IsClassName.className?_eq (h : IsClassName name) :
    className? name.toList = some name := by
  have hroot : name.toList.dropWhile (· == '\\') = name.toList := by
    cases hcs : name.toList with
    | nil => rfl
    | cons first rest =>
      have hstart := h.start first (by rw [hcs]; rfl)
      simp [hstart.2]
  rw [className?, h.trim_eq, hroot, if_pos (isClassName_iff.mpr h), String.ofList_toList]

/-- What is read as a class name is one, and follows the backslashes at the start. -/
theorem eq_of_className? (h : className? cs = some name) :
    name.toList = (Text.trim cs).dropWhile (· == '\\') ∧ IsClassName name := by
  obtain ⟨hname, hread⟩ := Option.ite_none_right_eq_some.mp h
  cases hread
  have hlist := String.toList_ofList (l := (Text.trim cs).dropWhile (· == '\\'))
  refine ⟨hlist, isClassName_iff.mp ?_⟩
  rwa [hlist]

/-! ### Keywords -/

def keywords : List String :=
  ["mixed", "bool", "boolean", "int", "integer", "float", "double", "string", "array",
    "callable", "null", "void"]

/-- Up to case the name is a keyword. -/
def IsKeyword (name : String) : Prop := ∃ w ∈ keywords, Text.sameName name w = true

theorem Kind.ofKeyword?_isSome_iff : (Kind.ofKeyword? name).isSome ↔ name ∈ keywords := by
  unfold ofKeyword?
  split <;> simp_all [keywords]

theorem isKeyword_iff : IsKeyword name ↔ (Kind.ofKeyword? (Text.lowercase name)).isSome := by
  have hlower : ∀ w ∈ keywords, Text.lowercase w = w := by decide
  rw [Kind.ofKeyword?_isSome_iff]
  constructor
  · rintro ⟨w, hw, hsame⟩
    rw [Text.sameName, beq_iff_eq, hlower w hw] at hsame
    rwa [hsame]
  · intro hmem
    refine ⟨_, hmem, ?_⟩
    rw [Text.sameName, beq_iff_eq, hlower _ hmem]

end PhpCheck
