/-
  PhpCheck/Proofs/Source/Recovery.lean
  ====================================
  **Every legible expression is read back** — the induction over expressions.

  What is said of an expression at one depth is all that the readers over the
  reader of that depth make of its text (`Reads`).  It follows from the same for
  its children, if the reader of that depth reads these and the expression itself
  (`ReadsTarget.reads`).  So from some depth on it holds at every depth
  (`exists_reads`).
-/
import PhpCheck.Proofs.Source.Whole

namespace PhpCheck.SourceReader

/-! ### One depth -/

section Depth

variable {inner : Reader Expr} {float? : List Char → Option Binary64} {x : Expr} {name : Name}

/-- All that the readers make of the text of an expression. -/
structure Reads (inner : Reader Expr) (float? : List Char → Option Binary64) (x : Expr) : Prop where
  goesOn : GoesOn inner float? x
  begins : BeginsOperand x
  operand : ReadsOperand inner float? x
  target : ReadsTarget inner float? x
  whole : ReadsWhole inner x

/-- Names can be told, numbers are not negative, and floats are told by their text. -/
structure Legible (float? : List Char → Option Binary64) (x : Expr) : Prop where
  regular : x.Regular
  distinct : x.Distinct
  float : TellsFloat float? x

/-- The reader reads words back. -/
def ReadsWords (inner : Reader Expr) : Prop :=
  ∀ word, IsName word → ReadsWhole inner (.constant {} word)

/-- An operand without parentheses is also a whole expression. -/
theorem ReadsOperand.readsTarget (h : ReadsOperand inner float? x) (hop : x.isOperator = false) :
    ReadsTarget inner float? x := by
  intro rest hr
  have hread := h rest hr.followsOperand
  rw [Expr.asOperand, hop, if_neg Bool.false_ne_true] at hread
  exact readWhole_of_simple (readSimple_operand hread hr)

theorem readsOperand_constant {s : Span} (hi : Refuses inner) {word : String} (hw : IsName word) :
    ReadsOperand inner float? (.constant s word) :=
  (goesOn_constant hi hw).chain.readsOperand
    (begins_of_children hw trivial (by simp [Expr.children])) rfl

theorem readsMember_of_children (hn : name.Regular)
    (hc : ∀ y ∈ name.children, Reads inner float? y) : ReadsMember inner name := by
  refine ⟨hn, ?_⟩
  rintro value rfl
  exact (hc value (by simp [Name.children])).whole

theorem readsName_of_children (hi : Refuses inner) (hn : name.Regular)
    (hc : ∀ y ∈ name.children, Reads inner float? y) : ReadsName inner float? name := by
  cases name with
  | literal text => exact goesOn_constant hi hn
  | computed value => exact (hc value (by simp [Name.children])).goesOn

theorem readsOperand_name (hi : Refuses inner) (hn : name.Regular)
    (hc : ∀ y ∈ name.children, Reads inner float? y) :
    ReadsOperand inner float? name.asExpr := by
  cases name with
  | literal text => exact readsOperand_constant hi hn
  | computed value => exact (hc value (by simp [Name.children])).operand

theorem goesOn_of_children (hi : Refuses inner) (hx : Legible float? x)
    (hchain : x.isOperatorOrNew = false) (hc : ∀ y ∈ x.children, Reads inner float? y) :
    GoesOn inner float? x := by
  have hname : ∀ name : Name, name.Regular → name.children ⊆ x.children →
      ReadsName inner float? name :=
    fun name hn hsub => readsName_of_children hi hn fun y hy => hc y (hsub hy)
  have hmember : ∀ name : Name, name.Regular → name.children ⊆ x.children →
      ReadsMember inner name :=
    fun name hn hsub => readsMember_of_children hn fun y hy => hc y (hsub hy)
  have hargs : ∀ arg ∈ x.args, ReadsWhole inner arg.value :=
    fun arg harg => (hc _ (Expr.mem_children_of_arg harg)).whole
  obtain ⟨hregular, hdistinct, hfloat⟩ := hx
  cases x with
  | binary | unary | assign | compoundAssign | cast | instanceOf | closure | new => cases hchain
  | «variable» _ name => exact goesOn_variable hi (hmember name hregular (by simp [Expr.children]))
  | int => exact goesOn_int hi hregular
  | float => exact goesOn_float hi hregular hfloat
  | string => exact goesOn_string hi _
  | constant => exact goesOn_constant hi hregular
  | array _ items =>
    refine goesOn_array hi fun item hitem y hy => (hc y ?_).whole
    exact List.mem_flatMap.mpr ⟨item, hitem, hy⟩
  | classConstant _ className name =>
    exact goesOn_classConstant hi hdistinct (hname className hregular.1 (by simp [Expr.children]))
      hregular.2
  | methodCall _ receiver method args =>
    exact goesOn_methodCall hi (hc receiver (by simp [Expr.children])).goesOn
      (hmember method hregular (by simp [Expr.children])) hargs
  | staticCall _ className method args =>
    exact goesOn_staticCall hi hdistinct (hname className hregular.1 (by simp [Expr.children]))
      (hmember method hregular.2 (by simp [Expr.children])) hargs
  | property _ receiver name =>
    exact goesOn_property hi (hc receiver (by simp [Expr.children])).goesOn
      (hmember name hregular (by simp [Expr.children]))
  | staticProperty _ className name =>
    exact goesOn_staticProperty hi hdistinct (hname className hregular.1 (by simp [Expr.children]))
      (hmember name hregular.2 (by simp [Expr.children]))
  | call _ function args =>
    exact goesOn_call hi hdistinct (hname function hregular (by simp [Expr.children])) hargs

theorem begins_of_legible (hx : Legible float? x) (hc : ∀ y ∈ x.children, Reads inner float? y) :
    BeginsOperand x :=
  begins_of_children hx.regular hx.distinct fun y hy => (hc y hy).begins

theorem readsOperand_new {s : Span} {args : List Arg} (hi : Refuses inner)
    (hx : Legible float? (.new s name args))
    (hc : ∀ y ∈ (Expr.new s name args).children, Reads inner float? y) :
    ReadsOperand inner float? (.new s name args) := by
  have hname : ∀ y ∈ name.children, Reads inner float? y :=
    fun y hy => hc y (List.mem_append_left _ hy)
  refine readOperand_new ?_ hx.distinct (readsName_of_children hi hx.regular hname) ?_
  · exact begins_name hx.regular hx.distinct fun y hy => (hname y hy).begins
  · exact fun arg harg => (hc _ (Expr.mem_children_of_arg harg)).whole

theorem readsTarget_closure {s : Span} {c : Closure} (hc : c.Regular)
    (hd : ∀ y ∈ (Expr.closure s c).children, Reads inner float? y) :
    ReadsTarget inner float? (.closure s c) := by
  intro rest hr
  have hdefaults : ∀ p ∈ c.params, ∀ y ∈ p.default, ReadsWhole inner y :=
    fun p hp y hy => (hd y (List.mem_filterMap.mpr ⟨p, hp, hy⟩)).whole
  have hread : readOperand inner float? (c.text.toList ++ rest) = _ :=
    readOperand_closure hc hdefaults rest
  rw [Expr.text]
  exact readWhole_of_simple (readSimple_operand hread hr)

/-- The text of an expression is read back as a target if those of its children are. -/
theorem readsTarget_of_children (hi : Refuses inner) (hwords : ReadsWords inner)
    (hx : Legible float? x) (hc : ∀ y ∈ x.children, Reads inner float? y) :
    ReadsTarget inner float? x := by
  have hchain : x.isOperatorOrNew = false → ReadsTarget inner float? x := by
    intro hop
    have hop' : x.isOperator = false := by
      cases x <;> first | rfl | cases hop
    have hgo := goesOn_of_children hi hx hop hc
    exact (hgo.chain.readsOperand (begins_of_legible hx hc) (hop.trans hop'.symm)).readsTarget hop'
  cases x with
  | new => exact (readsOperand_new hi hx hc).readsTarget rfl
  | closure => exact readsTarget_closure hx.regular hc
  | binary _ op left right =>
    intro rest hr
    exact readWhole_of_simple (readSimple_binary op (hc left (by simp [Expr.children])).operand
      (hc right (by simp [Expr.children])).operand hr.followsOperand)
  | unary _ op operand =>
    intro rest hr
    exact readWhole_of_simple (readSimple_unary op (hc operand (by simp [Expr.children])).operand
      hr.followsOperand)
  | cast _ kind operand =>
    intro rest hr
    exact readWhole_of_simple (readSimple_cast kind hwords
      (hc operand (by simp [Expr.children])).operand hr.followsOperand)
  | instanceOf _ operand className =>
    intro rest hr
    have hname := readsOperand_name hi hx.regular fun y hy => hc y (List.mem_cons_of_mem _ hy)
    exact readWhole_of_simple (readSimple_instanceOf (hc operand (by simp [Expr.children])).operand
      hx.distinct hname hr.followsOperand)
  | assign _ target value =>
    exact readsTarget_assign (hc target (by simp [Expr.children])).target
      (hc value (by simp [Expr.children])).operand
  | compoundAssign _ op target value =>
    exact readsTarget_compoundAssign op (hc target (by simp [Expr.children])).target
      (hc value (by simp [Expr.children])).operand
  | _ => exact hchain rfl

/-- An expression that is read whole in parentheses is read back wherever it may stand. -/
theorem ReadsTarget.reads (ht : ReadsTarget inner float? x) (hi : Refuses inner)
    (hx : Legible float? x) (hw : ReadsWhole inner x)
    (hc : ∀ y ∈ x.children, Reads inner float? y) : Reads inner float? x := by
  have hbegins := begins_of_legible hx hc
  have hgo : GoesOn inner float? x := by
    cases hop : x.isOperatorOrNew with
    | true => exact goesOn_parenthesised hi hw hop
    | false => exact goesOn_of_children hi hx hop hc
  have hoperand : ReadsOperand inner float? x := by
    cases x with
    | new => exact readsOperand_new hi hx hc
    | _ => exact hgo.chain.readsOperand hbegins rfl
  exact ⟨hgo, hbegins, hoperand, ht, hw⟩

end Depth

/-! ### All depths -/

section Depths

variable {float? : List Char → Option Binary64} {x : Expr}

theorem refuses_readWhole (inner : Reader Expr) : Refuses (readWhole inner float?) := by
  intro c hc cs
  have hoperand : readOperand inner float? (c :: cs) = none := by
    simp only [List.mem_cons, List.not_mem_nil, or_false] at hc
    rcases hc with rfl | rfl | rfl | rfl <;> exact readOperand_mark (by decide) (by decide) cs
  have hcast : readCast inner float? (c :: cs) = none := by
    refine readCast_none ?_ cs
    rintro rfl
    exact absurd hc (by decide)
  have hunary : readUnary inner float? (c :: cs) = none := by
    simp only [List.mem_cons, List.not_mem_nil, or_false] at hc
    rcases hc with rfl | rfl | rfl | rfl <;> exact hcast
  simp [readWhole, readSimple, hoperand, hunary]

theorem refuses_read : ∀ depth, Refuses (read float? depth)
  | 0 => fun _ _ _ => rfl
  | depth + 1 => refuses_readWhole (read float? depth)

theorem readsWords_read (depth : Nat) : ReadsWords (read float? (depth + 1)) := by
  intro word hw
  exact ((readsOperand_constant (refuses_read depth) hw).readsTarget rfl).readsWhole

/-- What holds of each of finitely many expressions from some depth on holds of all of them
    from some depth on. -/
theorem exists_depth {P : Nat → Expr → Prop} {xs : List Expr}
    (h : ∀ x ∈ xs, ∃ least, ∀ depth, least ≤ depth → P depth x) :
    ∃ least, ∀ depth, least ≤ depth → ∀ x ∈ xs, P depth x := by
  induction xs with
  | nil => exact ⟨0, by simp⟩
  | cons x xs ih =>
    obtain ⟨first, hfirst⟩ := h x List.mem_cons_self
    obtain ⟨least, hrest⟩ := ih fun y hy => h y (List.mem_cons_of_mem _ hy)
    refine ⟨max first least, fun depth hdepth => ?_⟩
    rintro y hy
    rcases List.mem_cons.mp hy with rfl | hy
    · exact hfirst depth (by omega)
    · exact hrest depth (by omega) y hy

/-- By induction on the expression, its text is read back at every depth from some depth on. -/
theorem exists_reads (hx : x.Everywhere (Legible float?)) :
    ∃ least, ∀ depth, least ≤ depth → Reads (read float? depth) float? x := by
  induction x using Expr.childInduction with
  | step x ih =>
    obtain ⟨least, hchildren⟩ := exists_depth fun y hy => ih y hy (hx.child hy)
    -- words are read from depth one on, and the expression itself one depth further
    refine ⟨least + 2, fun depth hdepth => ?_⟩
    obtain ⟨before, rfl⟩ : ∃ before, depth = before + 1 := ⟨depth - 1, by omega⟩
    have htarget : ∀ d, least + 1 ≤ d → ReadsTarget (read float? d) float? x := by
      intro d hd
      obtain ⟨d', rfl⟩ : ∃ d', d = d' + 1 := ⟨d - 1, by omega⟩
      exact readsTarget_of_children (refuses_read _) (readsWords_read d') hx.self
        (hchildren _ (by omega))
    have hwhole := (htarget before (by omega)).readsWhole
    exact (htarget _ (by omega)).reads (refuses_read _) hx.self hwhole (hchildren _ (by omega))

/-- Some reader reads the text of the expression back, and nothing is left. -/
theorem exists_read (hx : x.Everywhere (Legible float?)) :
    ∃ least, ∀ depth, least ≤ depth → read float? depth x.text.toList = some (x.bare, []) := by
  obtain ⟨least, hreads⟩ := exists_reads hx
  have hends : FollowsWhole [] := .inl (by rintro c ⟨⟩)
  refine ⟨least, fun depth hdepth => ?_⟩
  simpa using (hreads depth hdepth).whole [] hends

end Depths

end PhpCheck.SourceReader
