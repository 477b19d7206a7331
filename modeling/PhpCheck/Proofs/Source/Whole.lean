/-
  PhpCheck/Proofs/Source/Whole.lean
  =================================
  **Whole expressions are read back** — operators with their operands, and
  assignments.

  The target of an assignment is written without parentheses, whatever it is.  So
  a whole expression, like a chain, is not read back by itself: to read its text
  is to go on from it (`ReadsTarget`), with whatever assignments stand behind.
-/
import PhpCheck.Proofs.Source.Operands

namespace PhpCheck.SourceReader

/-! ### What may follow a target -/

/-- A target ends here, or the sign of an assignment or an arrow stands behind it. -/
def FollowsTarget (rest : List Char) : Prop :=
  Ends rest ∨ ∃ i more, connective? rest = some (i, more) ∧ (∀ op, i ≠ .binary op) ∧ i ≠ .instanceOf

theorem FollowsWhole.followsTarget {rest : List Char} (h : FollowsWhole rest) :
    FollowsTarget rest := by
  rcases h with h | ⟨more, h⟩
  · exact .inl h
  · exact .inr ⟨.arrow, more, h, by simp, by simp⟩

theorem FollowsTarget.followsOperand {rest : List Char} (h : FollowsTarget rest) :
    FollowsOperand rest := by
  rcases h with h | ⟨i, more, h, -⟩
  · exact .inl h
  · exact .inr ⟨i, more, h⟩

theorem followsOperand_sign (i : Connective) (rest : List Char) :
    FollowsOperand (' ' :: (i.text.toList ++ ' ' :: rest)) :=
  .inr ⟨i, rest, connective?_append i rest⟩

section

variable {inner : Reader Expr} {float? : List Char → Option Binary64} {x y : Expr} {s : Span}
  {cs rest : List Char}

/-! ### Operators -/

theorem readSimple_operand (h : readOperand inner float? cs = some (x, rest))
    (hr : FollowsTarget rest) : readSimple inner float? cs = some (x, rest) := by
  simp only [readSimple, h]
  rcases hr with hr | ⟨i, more, hr, hbinary, hclass⟩
  · rw [connective?_of_ends hr]
  · rw [hr]
    cases i <;> simp_all

theorem readSimple_binary {left right : Expr} (op : BinaryOp)
    (hl : ReadsOperand inner float? left) (hr : ReadsOperand inner float? right)
    (hrest : FollowsOperand rest) :
    readSimple inner float? ((Expr.binary s op left right).text.toList ++ rest)
      = some ((Expr.binary s op left right).bare, rest) := by
  have hsign := connective?_append (.binary op) ((right.asOperand right.text).toList ++ rest)
  have hleft := hl _ (followsOperand_sign (.binary op)
    ((right.asOperand right.text).toList ++ rest))
  have htext : (Expr.binary s op left right).text.toList ++ rest
      = (left.asOperand left.text).toList ++ ' ' :: ((Connective.binary op).text.toList ++
          ' ' :: ((right.asOperand right.text).toList ++ rest)) := by
    simp [Expr.text, Connective.text]
  rw [htext]
  simp only [readSimple, hleft, hsign, hr rest hrest]
  rfl

theorem readSimple_instanceOf {operand : Expr} {name : Name}
    (hx : ReadsOperand inner float? operand) (hd : name.Distinct)
    (hn : ReadsOperand inner float? name.asExpr) (hrest : FollowsOperand rest) :
    readSimple inner float? ((Expr.instanceOf s operand name).text.toList ++ rest)
      = some ((Expr.instanceOf s operand name).bare, rest) := by
  have hclass := hn rest hrest
  rw [← Name.text_eq] at hclass
  have hsign := connective?_append .instanceOf (name.text.toList ++ rest)
  have hoperand := hx _ (followsOperand_sign .instanceOf (name.text.toList ++ rest))
  have htext : (Expr.instanceOf s operand name).text.toList ++ rest
      = (operand.asOperand operand.text).toList ++ ' ' :: (Connective.instanceOf.text.toList ++
          ' ' :: (name.text.toList ++ rest)) := by
    simp [Expr.text, Connective.text]
  rw [htext]
  simp only [readSimple, hoperand, hsign, hclass, Option.map_some, asName_bare hd]
  rfl

/-- An operator before its operand is no operand. -/
theorem readOperand_mark {c : Char} (hname : isNameChar c = false)
    (hc : c ∉ [' ', '$', '\'', '[', '(']) (cs : List Char) :
    readOperand inner float? (c :: cs) = none := by
  simp only [List.mem_cons, List.not_mem_nil, or_false, not_or] at hc
  have hdetached : detached (c :: cs) = false := by
    simp [detached, hname, hc]
  simp [readOperand, hdetached, readChain, readHead, hc, not_isDigit hname, readName, hname]

theorem readSimple_unary (op : UnaryOp) (hx : ReadsOperand inner float? x)
    (hrest : FollowsOperand rest) :
    readSimple inner float? ((Expr.unary s op x).text.toList ++ rest)
      = some ((Expr.unary s op x).bare, rest) := by
  have hmark : ∀ c ∈ ['!', '-', '+'], ∀ cs, readOperand inner float? (c :: cs) = none := by
    intro c hc
    simp only [List.mem_cons, List.not_mem_nil, or_false] at hc
    rcases hc with rfl | rfl | rfl <;> exact readOperand_mark (by decide) (by decide)
  cases op <;>
    simp [Expr.text, UnaryOp.text, readSimple, hmark, readUnary, hx rest hrest, Expr.bare]

theorem exists_word (kind : CastKind) : ∃ word, kind.text = parenthesised word ∧ IsName word := by
  cases kind
  · exact ⟨"int", rfl, by decide⟩
  · exact ⟨"double", rfl, by decide⟩
  · exact ⟨"string", rfl, by decide⟩
  · exact ⟨"bool", rfl, by decide⟩
  · exact ⟨"array", rfl, by decide⟩
  · exact ⟨"object", rfl, by decide⟩
  · exact ⟨"unset", rfl, by decide⟩

/-- The text of a cast determines the cast. -/
theorem after?_cast {kind kind' : CastKind} (h : kind' ≠ kind) (rest : List Char) :
    after? (kind'.text.toList ++ [' ']) (kind.text.toList ++ ' ' :: rest) = none := by
  cases kind <;> cases kind' <;> first | exact absurd rfl h | rfl

theorem readCast_append (kind : CastKind) (hx : ReadsOperand inner float? x)
    (hrest : FollowsOperand rest) :
    readCast inner float? ((Expr.cast s kind x).text.toList ++ rest)
      = some ((Expr.cast s kind x).bare, rest) := by
  have htext : (Expr.cast s kind x).text.toList ++ rest
      = kind.text.toList ++ ' ' :: ((x.asOperand x.text).toList ++ rest) := by
    simp [Expr.text]
  have hmark : after? (kind.text.toList ++ [' '])
      (kind.text.toList ++ ' ' :: ((x.asOperand x.text).toList ++ rest))
        = some ((x.asOperand x.text).toList ++ rest) := by
    cases kind <;> rfl
  have hmem : kind ∈ CastKind.all := by
    cases kind <;> decide
  rw [htext, readCast]
  -- the one cast of the list that is written here gives the answer
  rcases hread : CastKind.all.findSome? _ with _ | read
  · have hnone := List.findSome?_eq_none_iff.mp hread kind hmem
    rw [hmark] at hnone
    simp [hx rest hrest] at hnone
  · obtain ⟨kind', -, hkind⟩ := List.exists_of_findSome?_eq_some hread
    by_cases hsame : kind' = kind
    · rw [hsame, hmark] at hkind
      simpa [hx rest hrest, Expr.bare] using hkind.symm
    · rw [after?_cast hsame] at hkind
      cases hkind

theorem readCast_none {c : Char} (hc : '(' ≠ c) (cs : List Char) :
    readCast inner float? (c :: cs) = none := by
  refine List.findSome?_eq_none_iff.mpr fun kind _ => ?_
  obtain ⟨word, htext, -⟩ := exists_word kind
  have hmark : after? (kind.text.toList ++ [' ']) (c :: cs) = none := by
    simp [htext, parenthesised, after?, hc]
  rw [hmark]
  rfl

/-- A word in parentheses is no operand, since only operators stand in parentheses. -/
theorem readOperand_word (hwords : ∀ word, IsName word → ReadsWhole inner (.constant {} word))
    {word : String} (hw : IsName word) (rest : List Char) :
    readOperand inner float? ((parenthesised word).toList ++ rest) = none := by
  have hread := hwords word hw _ (.inl (ends_cons (c := ')') (by decide) rest))
  have hdetached : ∀ cs, detached ('(' :: cs) = false := fun cs => rfl
  rw [Expr.text] at hread
  simp [parenthesised, readOperand, hdetached, readChain, readHead, hread, Expr.bare,
    Expr.isOperatorOrNew, Expr.isOperator]

theorem readSimple_cast (kind : CastKind)
    (hwords : ∀ word, IsName word → ReadsWhole inner (.constant {} word))
    (hx : ReadsOperand inner float? x) (hrest : FollowsOperand rest) :
    readSimple inner float? ((Expr.cast s kind x).text.toList ++ rest)
      = some ((Expr.cast s kind x).bare, rest) := by
  have hcast := readCast_append (s := s) kind hx hrest
  obtain ⟨word, htext, hword⟩ := exists_word kind
  have hnone : readOperand inner float? ((parenthesised word).toList ++
      ' ' :: ((x.asOperand x.text).toList ++ rest)) = none := readOperand_word hwords hword _
  have hsplit : (Expr.cast s kind x).text.toList ++ rest
      = (parenthesised word).toList ++ ' ' :: ((x.asOperand x.text).toList ++ rest) := by
    simp [Expr.text, htext]
  rw [hsplit] at hcast ⊢
  simp only [readSimple, hnone]
  simpa [readUnary, parenthesised] using hcast

/-! ### Assignments -/

/-- To read the expression as a target is to go on from it. -/
def ReadsTarget (inner : Reader Expr) (float? : List Char → Option Binary64) (x : Expr) : Prop :=
  ∀ rest, FollowsTarget rest →
    readWhole inner float? (x.text.toList ++ rest) = assignments inner float? x.bare rest

theorem readWhole_of_simple (h : readSimple inner float? cs = some (x, rest)) :
    readWhole inner float? cs = assignments inner float? x rest := by
  rw [readWhole, h]
  rfl

theorem assignments_stop (hr : FollowsWhole rest) (x : Expr) :
    assignments inner float? x rest = some (x, rest) := by
  rcases hr with hr | ⟨more, hr⟩
  · rw [assignments, connective?_of_ends hr]
  · rw [assignments, hr]

theorem ReadsTarget.readsWhole (h : ReadsTarget inner float? x) :
    ReadsWhole (readWhole inner float?) x := by
  intro rest hr
  rw [h rest hr.followsTarget, assignments_stop hr]

theorem followsTarget_sign {i : Connective} (hbinary : ∀ op, i ≠ .binary op)
    (hclass : i ≠ .instanceOf) (rest : List Char) :
    FollowsTarget (' ' :: (i.text.toList ++ ' ' :: rest)) :=
  .inr ⟨i, rest, connective?_append i rest, hbinary, hclass⟩

theorem readsTarget_assign {target value : Expr} (ht : ReadsTarget inner float? target)
    (hv : ReadsOperand inner float? value) : ReadsTarget inner float? (.assign s target value) := by
  intro rest hr
  have hvalue := hv rest hr.followsOperand
  have hsign := connective?_append .assign ((value.asOperand value.text).toList ++ rest)
  have htarget := ht _ (followsTarget_sign (i := .assign) (by simp) (by simp)
    ((value.asOperand value.text).toList ++ rest))
  have htext : (Expr.assign s target value).text.toList ++ rest
      = target.text.toList ++ ' ' :: (Connective.assign.text.toList ++
          ' ' :: ((value.asOperand value.text).toList ++ rest)) := by
    simp [Expr.text, Connective.text]
  rw [htext, htarget, assignments, hsign]
  simp only [hvalue]
  rw [if_pos (by simp; omega), Expr.bare]

theorem readsTarget_compoundAssign {target value : Expr} (op : ArithOp)
    (ht : ReadsTarget inner float? target) (hv : ReadsOperand inner float? value) :
    ReadsTarget inner float? (.compoundAssign s op target value) := by
  intro rest hr
  have hvalue := hv rest hr.followsOperand
  have hsign := connective?_append (.compoundAssign op)
    ((value.asOperand value.text).toList ++ rest)
  have htarget := ht _ (followsTarget_sign (i := .compoundAssign op) (by simp) (by simp)
    ((value.asOperand value.text).toList ++ rest))
  have htext : (Expr.compoundAssign s op target value).text.toList ++ rest
      = target.text.toList ++ ' ' :: ((Connective.compoundAssign op).text.toList ++
          ' ' :: ((value.asOperand value.text).toList ++ rest)) := by
    simp [Expr.text, Connective.text]
  rw [htext, htarget, assignments, hsign]
  simp only [hvalue]
  rw [if_pos (by simp; omega), Expr.bare]

end

end PhpCheck.SourceReader
