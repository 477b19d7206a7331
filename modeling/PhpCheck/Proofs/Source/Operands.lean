/-
  PhpCheck/Proofs/Source/Operands.lean
  ====================================
  **Operands are read back** — chains, instantiations and what stands in
  parentheses.

  An instantiation and a closure begin with a word and a blank.  So may a constant
  before an operator; what tells them apart is that an operand, unlike a sign
  between operands, goes on with a mark or begins with one (`Begins`).
-/
import PhpCheck.Proofs.Source.Chains

namespace PhpCheck.SourceReader

/-! ### How an operand begins -/

/-- A text begins with a word and a mark, or with a mark that no sign between operands has. -/
def Marked (text : List Char) : Prop :=
  ∃ word c more, text = word ++ c :: more ∧ (∀ d ∈ word, isNameChar d = true) ∧
    isNameChar c = false ∧ c ≠ ' ' ∧ (word = [] → c ∈ ['$', '\'', '[', '('])

/-- A text is a word or begins like one that is not. -/
def Begins (text : List Char) : Prop :=
  (text ≠ [] ∧ ∀ c ∈ text, isNameChar c = true) ∨ Marked text

theorem Marked.append {text : List Char} (h : Marked text) (rest : List Char) :
    Marked (text ++ rest) := by
  obtain ⟨word, c, more, rfl, hword, hc⟩ := h
  exact ⟨word, c, more ++ rest, by simp, hword, hc⟩

theorem marked_cons {c : Char} (hc : c ∈ ['$', '\'', '[', '(']) (rest : List Char) :
    Marked (c :: rest) := by
  refine ⟨[], c, rest, rfl, by simp, ?_, ?_, fun _ => hc⟩ <;>
    · simp only [List.mem_cons, List.not_mem_nil, or_false] at hc
      rcases hc with rfl | rfl | rfl | rfl <;> decide

/-- What an expression goes on with is a mark. -/
theorem Begins.marked {text : List Char} (h : Begins text) {c : Char} (hc : c ∈ ['-', ':', '('])
    (rest : List Char) : Marked (text ++ c :: rest) := by
  rcases h with ⟨hne, hword⟩ | h
  · refine ⟨text, c, rest, rfl, hword, ?_, ?_, fun hnil => absurd hnil hne⟩ <;>
      · simp only [List.mem_cons, List.not_mem_nil, or_false] at hc
        rcases hc with rfl | rfl | rfl <;> decide
  · exact h.append _

theorem Begins.of_isName {name : String} (h : IsName name) : Begins name.toList :=
  .inl ⟨h.nonempty, h.chars⟩

theorem Begins.not_detached {text rest : List Char} (h : Begins text) (hr : FollowsOperand rest) :
    detached (text ++ rest) = false := by
  rcases h with ⟨-, hword⟩ | ⟨word, c, more, rfl, hword, hc, hblank, -⟩
  · rw [detached, dropWhile_token hword fun c hc => (hr.boundary c hc).1]
    rcases hr with hr | ⟨i, more, hr⟩
    · split
      · exact absurd (hr ' ' rfl) (by decide)
      · rfl
    · obtain ⟨more', rfl⟩ := cons_of_connective? hr
      simp [hr]
  · have hend : ∀ d ∈ (c :: more ++ rest).head?, isNameChar d = false :=
      forall_mem_head?_cons hc _
    rw [detached, List.append_assoc, dropWhile_token hword hend]
    split
    · rename_i heq
      exact absurd (List.cons.inj heq).1 hblank
    · rfl

/-- No sign between operands begins like an operand with a mark. -/
theorem Marked.no_sign {text : List Char} (h : Marked text) :
    connective? (' ' :: text) = none := by
  obtain ⟨word, c, more, rfl, hword, hc, hblank, hmark⟩ := h
  have hsplit : word ++ c :: more = (word ++ [c]) ++ more := by simp
  rw [hsplit]
  refine connective?_eq_none ?_ ?_
  · intro d hd
    rcases List.mem_append.mp hd with hd | hd
    · have hname := hword d hd
      simp only [bne_iff_ne]
      rintro rfl
      exact absurd hname (by decide)
    · rw [List.mem_singleton.mp hd]
      simpa using hblank
  · intro i others htext
    have hmem : c ∈ i.text.toList := by simp [htext]
    cases word with
    | nil => exact i.not_mem_text c (hmark rfl) hmem
    | cons d word =>
      have hfirst : d ∈ i.text.toList := by simp [htext]
      rcases i.text_unmixed with hall | hall
      · rw [hall c hmem] at hc
        cases hc
      · have hd := hword d List.mem_cons_self
        rw [hall d hfirst] at hd
        cases hd

/-- A word and a blank with an operand behind it is not an operand itself. -/
theorem detached_word {word : String} (hw : IsName word) {text : List Char}
    (h : connective? (' ' :: text) = none) : detached (word.toList ++ ' ' :: text) = true := by
  have hend : ∀ c ∈ (' ' :: text).head?, isNameChar c = false :=
    forall_mem_head?_cons (by decide) text
  rw [detached, dropWhile_token hw.chars hend]
  simp [h]

/-! ### How each expression begins -/

theorem IsNumber.chars {token : List Char} (h : IsNumber token) :
    ∀ c ∈ token, isNumberChar c = true ∨ c = '-' := by
  have hnil : Boundary [] := by
    rintro c ⟨⟩
  have hspan := h.span [] hnil
  rw [List.append_nil, spanNumber] at hspan
  have hnumber : ∀ c ∈ token.takeWhile isNumberChar, isNumberChar c = true :=
    fun c hc => List.all_eq_true.mp List.all_takeWhile c hc
  intro c hc
  split at hspan
  · have hsplit := (Prod.mk.inj hspan).1
    rw [← hsplit] at hc
    rcases List.mem_append.mp hc with hc | hc
    · exact .inl (hnumber c hc)
    · rcases List.mem_cons.mp hc with rfl | hc
      · exact .inr rfl
      · exact .inl (isNumberChar_of_isDigit (List.all_eq_true.mp List.all_takeWhile c hc))
  · have hsplit := (Prod.mk.inj hspan).1
    rw [← hsplit] at hc
    exact .inl (hnumber c hc)

theorem Begins.of_isNumber {token : List Char} (h : IsNumber token) : Begins token := by
  obtain ⟨d, digits, hcons, hd⟩ := h.first
  have hword : ∀ c ∈ token.takeWhile isNameChar, isNameChar c = true :=
    fun c hc => List.all_eq_true.mp List.all_takeWhile c hc
  have hne : token.takeWhile isNameChar ≠ [] := by
    simp [hcons, isNameChar_of_isDigit hd]
  have hsplit := List.takeWhile_append_dropWhile (p := isNameChar) (l := token)
  cases hmore : token.dropWhile isNameChar with
  | nil =>
    rw [hmore, List.append_nil] at hsplit
    rw [← hsplit]
    exact .inl ⟨hne, hword⟩
  | cons c more =>
    rw [hmore] at hsplit
    have hmem : c ∈ token := by
      rw [← hsplit]
      simp
    have hblank : c ≠ ' ' := by
      rintro rfl
      rcases h.chars ' ' hmem with hc | hc
      · exact absurd hc (by decide)
      · cases hc
    have hend : isNameChar c = false := by
      have hhead := List.head?_dropWhile_not isNameChar token
      rw [hmore] at hhead
      simpa using hhead
    exact .inr ⟨_, c, more, hsplit.symm, hword, hend, hblank, fun hnil => absurd hnil hne⟩

/-- The text of the expression, in parentheses if it needs them before an arrow, begins like
    an operand. -/
def BeginsOperand (x : Expr) : Prop := Begins (x.asReceiver x.text).toList

theorem begins_parenthesised {x : Expr} (hop : x.isOperatorOrNew = true) : BeginsOperand x := by
  have htext : (parenthesised x.text).toList = '(' :: (x.text.toList ++ [')']) := by
    simp [parenthesised]
  rw [BeginsOperand, Expr.asReceiver, if_pos hop, htext]
  exact .inr (marked_cons (by decide) _)

theorem begins_name {name : Name} (hn : name.Regular) (hd : name.DistinctClass)
    (hc : ∀ x ∈ name.children, BeginsOperand x) : Begins name.text.toList := by
  cases name with
  | literal text => exact .of_isName hn
  | computed value =>
    rw [hd.text_eq]
    exact hc value (by simp [Name.children])

theorem begins_goingOn {text : String} {c : Char} {more : List Char} {x : Expr}
    (h : Begins text.toList) (hc : c ∈ ['-', ':', '(']) (hop : x.isOperatorOrNew = false)
    (htext : x.text.toList = text.toList ++ c :: more) : BeginsOperand x := by
  rw [BeginsOperand, Expr.asReceiver_text hop, htext]
  exact .inr (h.marked hc _)

theorem begins_mark {x : Expr} {c : Char} {more : List Char} (hc : c ∈ ['$', '\'', '[', '('])
    (hop : x.isOperatorOrNew = false) (htext : x.text.toList = c :: more) : BeginsOperand x := by
  rw [BeginsOperand, Expr.asReceiver_text hop, htext]
  exact .inr (marked_cons hc _)

/-- How an expression begins is how its receiver or the name of its class begins, or is told
    by its first character. -/
theorem begins_of_children {x : Expr} (hx : x.Regular) (hd : x.Distinct)
    (hc : ∀ y ∈ x.children, BeginsOperand y) : BeginsOperand x := by
  have hname : ∀ name : Name, name.Regular → name.DistinctClass → name.children ⊆ x.children →
      Begins name.text.toList :=
    fun name hn hd hsub => begins_name hn hd fun y hy => hc y (hsub hy)
  cases x with
  | binary | unary | assign | compoundAssign | cast | instanceOf | closure | new =>
    exact begins_parenthesised rfl
  | «variable» _ name =>
    exact begins_mark (c := '$') (by decide) rfl (by simp [Expr.text]; rfl)
  | int _ value =>
    rw [BeginsOperand, Expr.asReceiver_text rfl, Expr.text, toList_toString_int hx]
    exact .of_isNumber (isNumber_of_digits (digitsText_ne_nil _)
      fun c hc => isDigit_of_mem_digitsText hc)
  | float _ value =>
    obtain ⟨mantissa, exponent, rfl⟩ := hx
    rw [BeginsOperand, Expr.asReceiver_text rfl, Expr.text, toList_text_finite]
    exact .of_isNumber (isNumber_decimal _)
  | string _ value =>
    exact begins_mark (c := '\'') (by decide) rfl (by simp [Expr.text, stringLiteral]; rfl)
  | constant _ name =>
    rw [BeginsOperand, Expr.asReceiver_text rfl, Expr.text]
    exact .of_isName hx
  | array _ items =>
    exact begins_mark (c := '[') (by decide) rfl (by simp [Expr.text]; rfl)
  | classConstant _ className name =>
    have hbegins := hname className hx.1 hd (by simp [Expr.children])
    exact begins_goingOn hbegins (c := ':') (by decide) rfl (by simp [Expr.text]; rfl)
  | staticCall _ className method args =>
    have hbegins := hname className hx.1 hd (by simp [Expr.children])
    exact begins_goingOn hbegins (c := ':') (by decide) rfl (by simp [Expr.text]; rfl)
  | staticProperty _ className name =>
    have hbegins := hname className hx.1 hd (by simp [Expr.children])
    exact begins_goingOn hbegins (c := ':') (by decide) rfl (by simp [Expr.text]; rfl)
  | call _ function args =>
    have hbegins := hname function hx hd.distinctClass (by simp [Expr.children])
    exact begins_goingOn hbegins (c := '(') (by decide) rfl
      (by simp [Expr.text, listed, parenthesised]; rfl)
  | methodCall _ receiver method args =>
    have hbegins := hc receiver (by simp [Expr.children])
    exact begins_goingOn hbegins (c := '-') (by decide) rfl (by simp [Expr.text]; rfl)
  | property _ receiver name =>
    have hbegins := hc receiver (by simp [Expr.children])
    exact begins_goingOn hbegins (c := '-') (by decide) rfl (by simp [Expr.text]; rfl)

/-! ### Operands -/

section Operands

variable {inner : Reader Expr} {float? : List Char → Option Binary64} {x : Expr} {s : Span}
  {name : Name} {args : List Arg} {rest : List Char}

/-- The expression is read back as an operand, in parentheses if it needs them. -/
def ReadsOperand (inner : Reader Expr) (float? : List Char → Option Binary64) (x : Expr) : Prop :=
  ∀ rest, FollowsOperand rest →
    readOperand inner float? ((x.asOperand x.text).toList ++ rest) = some (x.bare, rest)

/-- What stands in parentheses before an arrow or without any stands so as an operand. -/
theorem ReadsChain.readsOperand (hx : ReadsChain inner float? x) (hb : BeginsOperand x)
    (hnew : x.isOperatorOrNew = x.isOperator) : ReadsOperand inner float? x := by
  intro rest hr
  have htext : x.asOperand x.text = x.asReceiver x.text := by
    rw [Expr.asOperand, Expr.asReceiver, hnew]
  rw [htext, readOperand, hb.not_detached hr, if_neg Bool.false_ne_true,
    hx rest (hr.followsChain x), chain_stop inner hr]

theorem readNew_append (hd : name.DistinctClass) (hn : ReadsName inner float? name)
    (hargs : ∀ arg ∈ args, ReadsWhole inner arg.value) (hr : FollowsOperand rest) :
    readNew inner float? ((Expr.new s name args).text.toList ++ rest)
      = some ((Expr.new s name args).bare, rest) := by
  have hread := readCalled_name hd hn hargs rest
  rw [chain_stop inner hr] at hread
  have hcall : instantiate (name.asExpr.called args).bare = some (Expr.new s name args).bare := by
    cases name with
    | literal => rfl
    | computed value => cases value <;> first | rfl | cases hd
  simp [Expr.text, readNew, after?, hread, hcall]

theorem readOperand_new (hb : Begins name.text.toList) (hd : name.DistinctClass)
    (hn : ReadsName inner float? name) (hargs : ∀ arg ∈ args, ReadsWhole inner arg.value) :
    ReadsOperand inner float? (.new s name args) := by
  intro rest hr
  have hread := readNew_append (s := s) hd hn hargs hr
  have htext : (Expr.new s name args).text.toList ++ rest = "new".toList ++ ' ' ::
      (name.text.toList ++ '(' :: ((Text.joined ", " (argTexts args)).toList ++ ')' :: rest)) := by
    simp [Expr.text, listed, parenthesised]
  have hdetached : detached ((Expr.new s name args).text.toList ++ rest) = true := by
    rw [htext]
    exact detached_word (by decide) (hb.marked (by decide) _).no_sign
  rw [Expr.asOperand, if_neg (by simp [Expr.isOperator]), readOperand, hdetached, if_pos rfl, hread]
  rfl

theorem no_sign_function (rest : List Char) : connective? (' ' :: 'f' :: rest) = none := by
  refine @connective?_eq_none ['f'] rest (by simp) fun i more htext => ?_
  exact i.head?_text_ne (by simp [htext])

theorem no_sign_reference (rest : List Char) : connective? (' ' :: '&' :: '(' :: rest) = none := by
  refine @connective?_eq_none ['&', '('] rest (by simp) fun i more htext => ?_
  exact i.not_mem_text '(' (by decide) (by simp [htext])

theorem detached_closure (c : Closure) (rest : List Char) :
    detached (c.text.toList ++ rest) = true := by
  have hsignature : ∃ more, (signatureText c).toList ++ rest = '(' :: more := by
    simp [signatureText, listed, parenthesised]
  obtain ⟨more, hmore⟩ := hsignature
  have hfunction : ∀ text, connective? (' ' :: text) = none →
      detached ("function".toList ++ ' ' :: text) = true :=
    fun text => detached_word (by decide)
  have hstatic : ∀ text, detached ("static".toList ++ ' ' :: 'f' :: text) = true :=
    fun text => detached_word (by decide) (no_sign_function text)
  rw [Closure.text_eq]
  cases c.isStatic <;> cases c.byRef
  · simpa [hmore] using hfunction _ (marked_cons (c := '(') (by decide) more).no_sign
  · simpa [hmore] using hfunction _ (no_sign_reference more)
  · simpa [hmore] using hstatic ("unction (".toList ++ more)
  · simpa [hmore] using hstatic ("unction &(".toList ++ more)

/-- A closure is also read without parentheses, where a whole expression is read. -/
theorem readOperand_closure {c : Closure} (hc : c.Regular)
    (hd : ∀ p ∈ c.params, ∀ x ∈ p.default, ReadsWhole inner x) (rest : List Char) :
    readOperand inner float? (c.text.toList ++ rest) = some (.closure {} c.bare, rest) := by
  have hread := readClosure_append hc hd rest
  have hnew : readNew inner float? (c.text.toList ++ rest) = none := by
    rw [Closure.text_eq]
    cases c.isStatic <;> simp [readNew, after?]
  rw [readOperand, detached_closure, if_pos rfl, hnew, hread]
  rfl

end Operands

end PhpCheck.SourceReader
