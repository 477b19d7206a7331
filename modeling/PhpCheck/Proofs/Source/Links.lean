/-
  PhpCheck/Proofs/Source/Links.lean
  =================================
  **Links of chains are read back** — heads, and the accesses and calls that go on
  from an expression.

  An expression goes on as long as there is an access or a call behind it
  (`chain_step`), and stops where an operand can end (`chain_stop`).  A
  parenthesis behind a property or a class constant makes it a call of a method;
  that is the one thing that must not follow these (`FollowsChain.access`).
-/
import PhpCheck.Proofs.Source.Parts

namespace PhpCheck.SourceReader

/-! ### What may follow a chain -/

/-- Whether an expression turns into a call of a method when arguments are put behind it. -/
def isAccess : Expr → Bool
  | .property .. | .classConstant .. => true
  | _ => false

/-- A chain ends here or goes on. -/
structure FollowsChain (x : Expr) (rest : List Char) : Prop where
  goesOn : FollowsOperand rest ∨ ∃ c ∈ ['-', ':', '('], rest.head? = some c
  access : isAccess x = true → rest.head? ≠ some '('

section

variable {x y : Expr} {rest cs : List Char}

theorem FollowsOperand.head?_ne (h : FollowsOperand rest) {c : Char}
    (hc : c ∈ ['-', ':', '(']) : rest.head? ≠ some c := by
  intro hhead
  have hmem : c ∈ rest.head? := hhead
  simp only [List.mem_cons, List.not_mem_nil, or_false] at hc
  rcases h with h | ⟨i, more, h⟩
  · have hclose := h c hmem
    rcases hc with rfl | rfl | rfl <;> exact absurd hclose (by decide)
  · obtain ⟨more', rfl⟩ := cons_of_connective? h
    cases hmem
    rcases hc with hc | hc | hc <;> cases hc

theorem FollowsOperand.followsChain (h : FollowsOperand rest) (x : Expr) : FollowsChain x rest :=
  ⟨.inl h, fun _ => h.head?_ne (by decide)⟩

theorem followsChain_cons {c : Char} (hc : c ∈ ['-', ':']) (x : Expr) (more : List Char) :
    FollowsChain x (c :: more) where
  goesOn := by
    simp only [List.mem_cons, List.not_mem_nil, or_false] at hc
    rcases hc with rfl | rfl <;> exact .inr ⟨_, by decide, rfl⟩
  access := by
    rintro - ⟨⟩
    exact absurd hc (by decide)

theorem followsChain_call (hx : isAccess x = false) (more : List Char) :
    FollowsChain x ('(' :: more) where
  goesOn := .inr ⟨'(', by decide, rfl⟩
  access h := by
    rw [hx] at h
    cases h

theorem FollowsChain.boundary (h : FollowsChain x rest) : Boundary rest := by
  rcases h.goesOn with hgo | ⟨c, hc, hhead⟩
  · exact hgo.boundary
  · intro d hd
    cases hhead.symm.trans hd
    simp only [List.mem_cons, List.not_mem_nil, or_false] at hc
    rcases hc with rfl | rfl | rfl <;> decide

/-! ### Steps -/

variable (inner : Reader Expr)

theorem chain_step (h : access? inner x cs = some (y, rest)) (hlength : rest.length < cs.length) :
    chain inner x cs = chain inner y rest := by
  rw [chain, h]
  simp [hlength]

theorem chain_stop (h : FollowsOperand rest) : chain inner x rest = some (x, rest) := by
  have hnone : access? inner x rest = none := by
    unfold access?
    split
    · exact absurd rfl (h.head?_ne (by decide))
    · exact absurd rfl (h.head?_ne (by decide))
    · exact absurd rfl (h.head?_ne (by decide))
    · exact absurd rfl (h.head?_ne (by decide))
    · rfl
  rw [chain, hnone]

end

/-! ### Accesses and calls -/

section Inner

variable {inner : Reader Expr} {rest : List Char} {args : List Arg}

/-- The name of a member, with all expressions in it read back. -/
def ReadsMember (inner : Reader Expr) (name : Name) : Prop :=
  name.Regular ∧ ∀ value, name = .computed value → ReadsWhole inner value

theorem boundary_call : ∀ more, Boundary ('(' :: more) := boundary_cons (by decide)

theorem toList_listed (texts : List String) (rest : List Char) :
    (listed texts).toList ++ rest
      = '(' :: ((Text.joined ", " texts).toList ++ ')' :: rest) := by
  simp [listed, parenthesised]

theorem length_listed (texts : List String) (rest : List Char) :
    rest.length < ((listed texts).toList ++ rest).length := by
  rw [toList_listed]
  simp only [List.length_cons, List.length_append]
  omega

theorem readMember_of_reads {name : Name} (hn : ReadsMember inner name) (hr : Boundary rest) :
    readMember inner (name.braceText.toList ++ rest) = some (name.bare, rest) :=
  readMember_append hn.1 hn.2 hr

/-- A member does not begin with the mark of a variable. -/
theorem braceText_cons {name : Name} (hn : name.Regular) (rest : List Char) :
    ∃ c more, name.braceText.toList ++ rest = c :: more ∧ c ≠ '$' := by
  cases name with
  | literal text =>
    obtain ⟨c, cs, hcons⟩ := List.exists_cons_of_ne_nil hn.nonempty
    refine ⟨c, cs ++ rest, by simp [Name.braceText, hcons], ?_⟩
    rintro rfl
    have hchar := hn.chars '$' (by simp [hcons])
    exact absurd hchar (by decide)
  | computed value => exact ⟨'\x7b', _, by simp [Name.braceText, braced]; rfl, by decide⟩

theorem access?_call (hi : Refuses inner) (hargs : ∀ arg ∈ args, ReadsWhole inner arg.value)
    (x : Expr) (rest : List Char) :
    access? inner x ((listed (argTexts args)).toList ++ rest)
      = some (.call {} (asName x) (bareArgs args), rest) := by
  rw [toList_listed]
  simp [access?, readArgs_append hi hargs rest]

theorem access?_methodCall (hi : Refuses inner) {method : Name} (hm : ReadsMember inner method)
    (hargs : ∀ arg ∈ args, ReadsWhole inner arg.value) (x : Expr) (rest : List Char) :
    access? inner x ('-' :: '>' ::
        (method.braceText.toList ++ ((listed (argTexts args)).toList ++ rest)))
      = some (.methodCall {} x method.bare (bareArgs args), rest) := by
  rw [toList_listed]
  simp [access?, readMember_of_reads hm (boundary_call _), readArgs_append hi hargs rest]

theorem access?_property {name : Name} (hn : ReadsMember inner name) (hr : Boundary rest)
    (hcall : rest.head? ≠ some '(') (x : Expr) :
    access? inner x ('-' :: '>' :: (name.braceText.toList ++ rest))
      = some (.property {} x name.bare, rest) := by
  have hread := readMember_of_reads hn hr
  simp only [access?, hread]
  split
  · rename_i heq
    cases heq
    exact absurd rfl hcall
  · rename_i heq
    cases heq
    rfl
  · rename_i heq
    cases heq

theorem access?_staticProperty {name : Name} (hn : ReadsMember inner name) (hr : Boundary rest)
    (x : Expr) :
    access? inner x (':' :: ':' :: '$' :: (name.braceText.toList ++ rest))
      = some (.staticProperty {} (asName x) name.bare, rest) := by
  simp [access?, readMember_of_reads hn hr]

theorem access?_staticCall (hi : Refuses inner) {method : Name} (hm : ReadsMember inner method)
    (hargs : ∀ arg ∈ args, ReadsWhole inner arg.value) (x : Expr) (rest : List Char) :
    access? inner x (':' :: ':' ::
        (method.braceText.toList ++ ((listed (argTexts args)).toList ++ rest)))
      = some (.staticCall {} (asName x) method.bare (bareArgs args), rest) := by
  rw [toList_listed]
  have hread := readMember_of_reads hm (boundary_call
    ((Text.joined ", " (argTexts args)).toList ++ ')' :: rest))
  obtain ⟨c, more, hcons, hmark⟩ := braceText_cons hm.1
    ('(' :: ((Text.joined ", " (argTexts args)).toList ++ ')' :: rest))
  rw [hcons] at hread ⊢
  simp [access?, hmark, hread, readArgs_append hi hargs rest]

theorem access?_classConstant {name : String} (hn : IsName name) (hr : Boundary rest)
    (hcall : rest.head? ≠ some '(') (x : Expr) :
    access? inner x (':' :: ':' :: (name.toList ++ rest))
      = some (.classConstant {} (asName x) name, rest) := by
  have hm : ReadsMember inner (.literal name) := ⟨hn, fun value h => by cases h⟩
  have hread := readMember_of_reads hm hr
  obtain ⟨c, more, hcons, hmark⟩ := braceText_cons hm.1 rest
  rw [Name.braceText] at hread hcons
  rw [hcons] at hread ⊢
  cases rest with
  | nil => simp [access?, hmark, hread, Name.bare]
  | cons d rest =>
    have hopen : d ≠ '(' := by
      rintro rfl
      exact hcall rfl
    simp [access?, hmark, hread, hopen, Name.bare]

/-! ### Heads -/

variable {float? : List Char → Option Binary64}

/-- The expression is not a float, or its text is told from those of other floats. -/
def TellsFloat (float? : List Char → Option Binary64) : Expr → Prop
  | .float _ value => float? value.text.toList = some value
  | _ => True

theorem toList_stringLiteral (value : String) (rest : List Char) :
    (stringLiteral value).toList ++ rest
      = '\'' :: (value.toList.flatMap quoted ++ '\'' :: rest) := by
  have hquoted : (fun c => if c = '\'' ∨ c = '\\' then ['\\', c] else [c]) = quoted := rfl
  simp [stringLiteral, hquoted]

theorem readHead_digit {c : Char} (hc : c.isDigit = true) (cs : List Char) :
    readHead inner float? (c :: cs) = readNumber float? (c :: cs) := by
  have hmarks : c ≠ '$' ∧ c ≠ '\'' ∧ c ≠ '[' ∧ c ≠ '(' := by
    refine ⟨?_, ?_, ?_, ?_⟩ <;>
      · rintro rfl
        exact absurd hc (by decide)
  simp [readHead, hmarks, hc]

theorem readHead_number {token : List Char} (ht : IsNumber token) (rest : List Char) :
    readHead inner float? (token ++ rest) = readNumber float? (token ++ rest) := by
  obtain ⟨c, cs, rfl, hc⟩ := ht.first
  exact readHead_digit hc _

theorem readHead_name {name : String} (hn : IsName name) (hr : Boundary rest) :
    readHead inner float? (name.toList ++ rest) = some (.constant {} name, rest) := by
  have hread := readName_append hn hr
  obtain ⟨c, cs, hcons⟩ := List.exists_cons_of_ne_nil hn.nonempty
  have hchar := hn.chars c (by simp [hcons])
  have hfirst := hn.first c (by simp [hcons])
  have hmarks : c ≠ '$' ∧ c ≠ '\'' ∧ c ≠ '[' ∧ c ≠ '(' := by
    refine ⟨?_, ?_, ?_, ?_⟩ <;>
      · rintro rfl
        exact absurd hchar (by decide)
  rw [hcons] at hread ⊢
  rw [List.cons_append] at hread ⊢
  simp [readHead, hmarks, hfirst, hread]

theorem readHead_parenthesised {x : Expr} (hx : ReadsWhole inner x)
    (hop : x.isOperatorOrNew = true) (rest : List Char) :
    readHead inner float? ((parenthesised x.text).toList ++ rest) = some (x.bare, rest) := by
  have hread := hx _ (.inl (ends_cons (c := ')') (by decide) rest))
  simp [parenthesised, readHead, hread, x.isOperatorOrNew_bare, hop]

end Inner

end PhpCheck.SourceReader
