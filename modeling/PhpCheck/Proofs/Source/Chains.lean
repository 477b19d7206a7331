/-
  PhpCheck/Proofs/Source/Chains.lean
  ==================================
  **Chains are read back** — heads with accesses and calls behind them.

  The text of a longer chain begins with that of a shorter one.  So a chain is
  not read back by itself: to read its text is to go on from the chain
  (`ReadsChain`), with whatever stands behind it.  Each access and each call is
  one step of this, so the lemmas follow the receivers and the names of classes.

  Arguments behind a property or a class constant are no step from it: together
  they are a call of a method.  Hence what an expression with arguments behind it
  is read as is said apart (`ReadsCalled`).
-/
import PhpCheck.Proofs.Source.Links

namespace PhpCheck.SourceReader

/-! ### Going on from a chain -/

section Going

variable (inner : Reader Expr) (float? : List Char → Option Binary64)

/-- To read the expression, in parentheses if it needs them before an arrow, is to go on
    from it. -/
def ReadsChain (x : Expr) : Prop :=
  ∀ rest, FollowsChain x rest →
    readChain inner float? ((x.asReceiver x.text).toList ++ rest) = chain inner x.bare rest

/-- To read it with arguments behind it is to go on from the call. -/
def ReadsCalled (x : Expr) : Prop :=
  ∀ args : List Arg, (∀ arg ∈ args, ReadsWhole inner arg.value) → ∀ rest,
    readChain inner float?
        ((x.asReceiver x.text).toList ++ ((listed (argTexts args)).toList ++ rest))
      = chain inner (x.called args).bare rest

structure GoesOn (x : Expr) : Prop where
  chain : ReadsChain inner float? x
  called : ReadsCalled inner float? x

end Going

section Links

variable {inner : Reader Expr} {float? : List Char → Option Binary64} {x : Expr} {s : Span}
  {name : Name} {args : List Arg} {rest : List Char}

theorem readChain_link {cs : List Char} {y : Expr} {more : List Char}
    (hread : readChain inner float? cs = chain inner x more)
    (hlink : access? inner x more = some (y, rest)) (hlength : rest.length < more.length) :
    readChain inner float? cs = chain inner y rest := by
  rw [hread, chain_step inner hlink hlength]

theorem bare_called (hx : isAccess x = false) :
    (x.called args).bare = .call {} (asName x.bare) (bareArgs args) := by
  cases x <;> first | rfl | cases hx

theorem ReadsChain.goesOn (hi : Refuses inner) (h : ReadsChain inner float? x)
    (hx : isAccess x = false) : GoesOn inner float? x where
  chain := h
  called args hargs rest := by
    have hfollows : FollowsChain x ((listed (argTexts args)).toList ++ rest) := by
      rw [toList_listed]
      exact followsChain_call hx _
    rw [readChain_link (h _ hfollows) (access?_call hi hargs _ rest) (length_listed _ rest),
      bare_called hx]

theorem readsChain_of_head (h : ∀ rest, Boundary rest →
    readHead inner float? ((x.asReceiver x.text).toList ++ rest) = some (x.bare, rest)) :
    ReadsChain inner float? x := by
  intro rest hrest
  rw [readChain, h rest hrest.boundary]
  rfl

/-! ### Each head -/

theorem goesOn_parenthesised (hi : Refuses inner) (hx : ReadsWhole inner x)
    (hop : x.isOperatorOrNew = true) : GoesOn inner float? x := by
  have haccess : isAccess x = false := by
    cases x <;> first | rfl | cases hop
  refine (readsChain_of_head fun rest _ => ?_).goesOn hi haccess
  rw [Expr.asReceiver, if_pos hop]
  exact readHead_parenthesised hx hop rest

theorem goesOn_variable (hi : Refuses inner) (hn : ReadsMember inner name) :
    GoesOn inner float? (.variable s name) := by
  refine (readsChain_of_head fun rest hr => ?_).goesOn hi rfl
  have hread := readMember_of_reads hn hr
  rw [Expr.asReceiver_text rfl]
  simp [Expr.text, readHead, hread, Expr.bare]

theorem goesOn_int (hi : Refuses inner) {value : Int} (h : 0 ≤ value) :
    GoesOn inner float? (.int s value) := by
  refine (readsChain_of_head fun rest hr => ?_).goesOn hi rfl
  have hnumber : IsNumber (toString value).toList := by
    rw [toList_toString_int h]
    exact isNumber_of_digits (digitsText_ne_nil _) fun c hc => isDigit_of_mem_digitsText hc
  rw [Expr.asReceiver_text rfl, Expr.text, readHead_number hnumber, readNumber_int float? h hr,
    Expr.bare]

theorem goesOn_float (hi : Refuses inner) {value : Binary64}
    (hx : (Expr.float s value).Regular) (hfloat : TellsFloat float? (.float s value)) :
    GoesOn inner float? (.float s value) := by
  refine (readsChain_of_head fun rest hr => ?_).goesOn hi rfl
  obtain ⟨mantissa, exponent, rfl⟩ := hx
  have hnumber : IsNumber (Binary64.finite false mantissa exponent).text.toList := by
    rw [toList_text_finite]
    exact isNumber_decimal _
  rw [Expr.asReceiver_text rfl, Expr.text, readHead_number hnumber, readNumber_float hfloat hr,
    Expr.bare]

theorem goesOn_string (hi : Refuses inner) (value : String) :
    GoesOn inner float? (.string s value) := by
  refine (readsChain_of_head fun rest _ => ?_).goesOn hi rfl
  rw [Expr.asReceiver_text rfl, Expr.text, toList_stringLiteral]
  simp [readHead, readQuoted_append, Expr.bare]

theorem goesOn_constant (hi : Refuses inner) {name : String} (hn : IsName name) :
    GoesOn inner float? (.constant s name) := by
  refine (readsChain_of_head fun rest hr => ?_).goesOn hi rfl
  rw [Expr.asReceiver_text rfl, Expr.text, readHead_name hn hr, Expr.bare]

theorem goesOn_array (hi : Refuses inner) {items : List Item}
    (hitems : ∀ item ∈ items, ∀ x ∈ item.children, ReadsWhole inner x) :
    GoesOn inner float? (.array s items) := by
  refine (readsChain_of_head fun rest _ => ?_).goesOn hi rfl
  have hread := readItems_append hi hitems rest
  rw [Expr.asReceiver_text rfl]
  simp [Expr.text, readHead, hread, Expr.bare]

/-! ### Each access and each call -/

theorem goesOn_property (hi : Refuses inner) {receiver : Expr}
    (hr : GoesOn inner float? receiver) (hn : ReadsMember inner name) :
    GoesOn inner float? (.property s receiver name) where
  chain rest hrest := by
    have hlink := access?_property hn hrest.boundary (hrest.access rfl) receiver.bare
    have hread := hr.chain _ (followsChain_cons (c := '-') (by decide) receiver
      ('>' :: (name.braceText.toList ++ rest)))
    have hgo := readChain_link hread hlink (by simp; omega)
    rw [Expr.asReceiver_text rfl]
    simpa [Expr.text, Expr.bare] using hgo
  called args hargs rest := by
    have hlink := access?_methodCall hi hn hargs receiver.bare rest
    have hread := hr.chain _ (followsChain_cons (c := '-') (by decide) receiver
      ('>' :: (name.braceText.toList ++ ((listed (argTexts args)).toList ++ rest))))
    have hgo := readChain_link hread hlink (by simp; omega)
    rw [Expr.asReceiver_text rfl]
    simpa [Expr.text, Expr.called, Expr.bare] using hgo

theorem goesOn_methodCall (hi : Refuses inner) {receiver : Expr}
    (hr : GoesOn inner float? receiver) (hm : ReadsMember inner name)
    (hargs : ∀ arg ∈ args, ReadsWhole inner arg.value) :
    GoesOn inner float? (.methodCall s receiver name args) := by
  refine ReadsChain.goesOn hi (fun rest _ => ?_) rfl
  have hread := (goesOn_property (s := {}) hi hr hm).called args hargs rest
  rw [Expr.asReceiver_text rfl] at hread ⊢
  simpa [Expr.text, Expr.called, Expr.bare] using hread

/-! ### Names of classes and functions -/

/-- The name of a class or function is read like an expression. -/
def ReadsName (inner : Reader Expr) (float? : List Char → Option Binary64) (name : Name) : Prop :=
  GoesOn inner float? name.asExpr

theorem asName_bare (hd : name.Distinct) : asName name.asExpr.bare = name.bare := by
  cases name with
  | literal => rfl
  | computed value => cases value <;> first | rfl | cases hd

theorem readChain_name (hd : name.DistinctClass) (hn : ReadsName inner float? name)
    (hr : FollowsChain name.asExpr rest) :
    readChain inner float? (name.text.toList ++ rest) = chain inner name.asExpr.bare rest := by
  rw [hd.text_eq]
  exact hn.chain rest hr

theorem readCalled_name (hd : name.DistinctClass) (hn : ReadsName inner float? name)
    (hargs : ∀ arg ∈ args, ReadsWhole inner arg.value) (rest : List Char) :
    readChain inner float? (name.text.toList ++ ((listed (argTexts args)).toList ++ rest))
      = chain inner (name.asExpr.called args).bare rest := by
  rw [hd.text_eq]
  exact hn.called args hargs rest

theorem goesOn_call (hi : Refuses inner) (hd : name.DistinctFunction)
    (hn : ReadsName inner float? name) (hargs : ∀ arg ∈ args, ReadsWhole inner arg.value) :
    GoesOn inner float? (.call s name args) := by
  refine ReadsChain.goesOn hi (fun rest _ => ?_) rfl
  have hread := readCalled_name hd.distinctClass hn hargs rest
  rw [hd.bare_called s args] at hread
  rw [Expr.asReceiver_text rfl]
  simpa [Expr.text] using hread

theorem goesOn_staticProperty (hi : Refuses inner) {property : Name} (hd : name.DistinctClass)
    (hn : ReadsName inner float? name) (hp : ReadsMember inner property) :
    GoesOn inner float? (.staticProperty s name property) := by
  refine ReadsChain.goesOn hi (fun rest hrest => ?_) rfl
  have hlink := access?_staticProperty hp hrest.boundary name.asExpr.bare
  have hread := readChain_name hd hn (followsChain_cons (c := ':') (by decide) name.asExpr
    (':' :: '$' :: (property.braceText.toList ++ rest)))
  have hgo := readChain_link hread hlink (by simp; omega)
  rw [asName_bare hd.distinct] at hgo
  rw [Expr.asReceiver_text rfl]
  simpa [Expr.text, Expr.bare] using hgo

theorem readChain_staticCall (hi : Refuses inner) {method : Name} (hd : name.DistinctClass)
    (hn : ReadsName inner float? name) (hm : ReadsMember inner method)
    (hargs : ∀ arg ∈ args, ReadsWhole inner arg.value) (rest : List Char) :
    readChain inner float? (name.text.toList ++ ':' :: ':' ::
        (method.braceText.toList ++ ((listed (argTexts args)).toList ++ rest)))
      = chain inner (.staticCall {} name.bare method.bare (bareArgs args)) rest := by
  have hlink := access?_staticCall hi hm hargs name.asExpr.bare rest
  have hread := readChain_name hd hn (followsChain_cons (c := ':') (by decide) name.asExpr
    (':' :: (method.braceText.toList ++ ((listed (argTexts args)).toList ++ rest))))
  have hgo := readChain_link hread hlink (by simp; omega)
  rwa [asName_bare hd.distinct] at hgo

theorem goesOn_staticCall (hi : Refuses inner) {method : Name} (hd : name.DistinctClass)
    (hn : ReadsName inner float? name) (hm : ReadsMember inner method)
    (hargs : ∀ arg ∈ args, ReadsWhole inner arg.value) :
    GoesOn inner float? (.staticCall s name method args) := by
  refine ReadsChain.goesOn hi (fun rest _ => ?_) rfl
  have hread := readChain_staticCall hi hd hn hm hargs rest
  rw [Expr.asReceiver_text rfl]
  simpa [Expr.text, Expr.bare] using hread

theorem goesOn_classConstant (hi : Refuses inner) {constant : String} (hd : name.DistinctClass)
    (hn : ReadsName inner float? name) (hc : IsName constant) :
    GoesOn inner float? (.classConstant s name constant) where
  chain rest hrest := by
    have hlink : access? inner name.asExpr.bare (':' :: ':' :: (constant.toList ++ rest)) = _ :=
      access?_classConstant hc hrest.boundary (hrest.access rfl) name.asExpr.bare
    have hread := readChain_name hd hn (followsChain_cons (c := ':') (by decide) name.asExpr
      (':' :: (constant.toList ++ rest)))
    have hgo := readChain_link hread hlink (by simp; omega)
    rw [asName_bare hd.distinct] at hgo
    rw [Expr.asReceiver_text rfl]
    simpa [Expr.text, Expr.bare] using hgo
  called args hargs rest := by
    have hm : ReadsMember inner (.literal constant) := ⟨hc, fun value h => by cases h⟩
    have hread := readChain_staticCall hi hd hn hm hargs rest
    rw [Expr.asReceiver_text rfl]
    simpa [Expr.text, Name.braceText,
      Expr.called, Expr.bare, Name.bare] using hread

end Links

end PhpCheck.SourceReader
