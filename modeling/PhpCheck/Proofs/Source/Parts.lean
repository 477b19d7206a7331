/-
  PhpCheck/Proofs/Source/Parts.lean
  =================================
  **Parts in brackets are read back** — the names, arguments, items and closures
  that have expressions inside.

  What stands in brackets is read by the reader of the next depth.  The lemmas
  here assume that this reader reads back the expressions in question
  (`ReadsWhole`), and that it takes nothing which begins with a closing mark or
  with the mark of a reference (`Refuses`).
-/
import PhpCheck.Proofs.Code.Within
import PhpCheck.Proofs.Source.Regular

namespace PhpCheck.SourceReader

/-! ### What may follow -/

/-- A whole expression ends here, or an arrow stands behind it. -/
def FollowsWhole (rest : List Char) : Prop :=
  Ends rest ∨ ∃ more, connective? rest = some (.arrow, more)

/-- An operand ends here, or a sign stands behind it. -/
def FollowsOperand (rest : List Char) : Prop :=
  Ends rest ∨ ∃ i more, connective? rest = some (i, more)

theorem cons_of_connective? {rest : List Char} {r : Connective × List Char}
    (h : connective? rest = some r) : ∃ more, rest = ' ' :: more := by
  unfold connective? at h
  split at h
  · exact ⟨_, rfl⟩
  · cases h

theorem connective?_of_ends {rest : List Char} (h : Ends rest) : connective? rest = none := by
  unfold connective?
  split
  · exact absurd (h ' ' rfl) (by decide)
  · rfl

theorem Ends.boundary {rest : List Char} (h : Ends rest) : Boundary rest := by
  intro c hc
  have hmem := h c hc
  simp only [List.mem_cons, List.not_mem_nil, or_false] at hmem
  rcases hmem with rfl | rfl | rfl | rfl <;> decide

theorem FollowsOperand.boundary {rest : List Char} (h : FollowsOperand rest) : Boundary rest := by
  rcases h with h | ⟨i, more, h⟩
  · exact h.boundary
  · obtain ⟨more', rfl⟩ := cons_of_connective? h
    exact boundary_cons (by decide) more'

/-! ### The reader of the next depth -/

/-- The reader reads the expression back, wherever a whole expression can end. -/
def ReadsWhole (inner : Reader Expr) (x : Expr) : Prop :=
  ∀ rest, FollowsWhole rest → inner (x.text.toList ++ rest) = some (x.bare, rest)

/-- The reader takes nothing that begins with a closing mark or a mark of arguments. -/
def Refuses (inner : Reader Expr) : Prop := ∀ c ∈ [')', ']', '&', '.'], ∀ cs, inner (c :: cs) = none

section Inner

variable {inner : Reader Expr} {rest : List Char}

theorem Refuses.flag_eq (h : Refuses inner) {c : Char} (hc : c ∈ [')', ']', '&', '.'])
    {cs : List Char} {r : Expr × List Char} (hcs : inner cs = some r) (mark : List Char) :
    flag (c :: mark) cs = (false, cs) := by
  cases cs with
  | nil => rfl
  | cons d cs =>
    refine flag_cons_of_ne ?_ mark cs
    rintro rfl
    rw [h c hc cs] at hcs
    cases hcs

@[simp] theorem flag_reference (cs : List Char) : flag ['&'] ('&' :: cs) = (true, cs) := rfl

@[simp] theorem flag_dots (cs : List Char) :
    flag ['.', '.', '.'] ('.' :: '.' :: '.' :: cs) = (true, cs) := rfl

@[simp] theorem flag_reference_dot (cs : List Char) :
    flag ['&'] ('.' :: cs) = (false, '.' :: cs) := rfl

/-! ### Names and arguments -/

theorem readMember_append {name : Name} (hn : name.Regular)
    (hc : ∀ value, name = .computed value → ReadsWhole inner value) (hr : Boundary rest) :
    readMember inner (name.braceText.toList ++ rest) = some (name.bare, rest) := by
  cases name with
  | literal text =>
    have hread := readName_append hn hr
    obtain ⟨c, cs, hcons⟩ := List.exists_cons_of_ne_nil hn.nonempty
    have hbrace : c ≠ '\x7b' := by
      rintro rfl
      have hchar := hn.chars '\x7b' (by simp [hcons])
      exact absurd hchar (by decide)
    rw [Name.braceText, readMember, hread]
    · rfl
    · intro more hmore
      rw [hcons] at hmore
      exact hbrace (List.cons.inj hmore).1
  | computed value =>
    have hread := hc value rfl _ (.inl (ends_cons (c := '\x7d') (by decide) rest))
    simp [Name.braceText, braced, readMember, hread, Name.bare]

theorem readArg_append (hi : Refuses inner) {arg : Arg} (hvalue : ReadsWhole inner arg.value)
    (hr : Ends rest) : readArg inner (arg.text.toList ++ rest) = some (arg.bare, rest) := by
  obtain ⟨value, byRef, unpacked⟩ := arg
  have hread := hvalue rest (.inl hr)
  have hreference := hi.flag_eq (c := '&') (by decide) hread []
  have hdots := hi.flag_eq (c := '.') (by decide) hread ['.', '.']
  cases byRef <;> cases unpacked <;>
    simp [Arg.text, readArg, hreference, hdots, hread, Arg.bare]

theorem argTexts_eq_map (args : List Arg) : argTexts args = args.map Arg.text := by
  induction args with
  | nil => rfl
  | cons arg rest ih => rw [argTexts, ih, List.map_cons]

/-- The arguments of a call, from behind the opening parenthesis on. -/
theorem readArgs_append (hi : Refuses inner) {args : List Arg}
    (hargs : ∀ arg ∈ args, ReadsWhole inner arg.value) (rest : List Char) :
    readList (readArg inner) ')' ((Text.joined ", " (argTexts args)).toList ++ ')' :: rest)
      = some (bareArgs args, rest) := by
  rw [argTexts_eq_map, bareArgs_eq_map]
  refine readList_joined (by decide) rest args ?_ ?_
  · intro arg harg rest hr
    exact readArg_append hi (hargs arg harg) hr
  · intro rest
    have hnone := hi ')' (by decide) rest
    have hreference : flag ['&'] (')' :: rest) = (false, ')' :: rest) := rfl
    have hdots : flag ['.', '.', '.'] (')' :: rest) = (false, ')' :: rest) := rfl
    simp [readArg, hreference, hdots, hnone]

/-! ### Items -/

theorem readItem_append (hi : Refuses inner) {item : Item}
    (hitem : ∀ x ∈ item.children, ReadsWhole inner x) (hr : Ends rest) :
    readItem inner (item.text.toList ++ rest) = some (item.bare, rest) := by
  obtain ⟨key, value, byRef⟩ := item
  have hvalue := hitem value (by simp [Item.children]) rest (.inl hr)
  have hreference := hi.flag_eq (c := '&') (by decide) hvalue []
  have hnone := connective?_of_ends hr
  cases key with
  | none =>
    cases byRef <;>
      simp [Item.text, keyText, readItem, hreference, hvalue, hnone, Item.bare, bareOption]
  | some key =>
    have harrow : ∀ more, connective? (' ' :: '=' :: '>' :: ' ' :: more) = some (.arrow, more) :=
      fun more => connective?_append .arrow more
    have hkey : ∀ more, inner (key.text.toList ++ ' ' :: '=' :: '>' :: ' ' :: more)
        = some (key.bare, ' ' :: '=' :: '>' :: ' ' :: more) := by
      intro more
      exact hitem key (by simp [Item.children]) _ (.inr ⟨more, harrow more⟩)
    have hkeyReference := fun more => hi.flag_eq (c := '&') (by decide) (hkey more) []
    cases byRef <;>
      simp [Item.text, keyText, readItem, hkeyReference, hkey, harrow, hreference, hvalue,
        Item.bare, bareOption]

theorem itemTexts_eq_map (items : List Item) : itemTexts items = items.map Item.text := by
  induction items with
  | nil => rfl
  | cons item rest ih => rw [itemTexts, ih, List.map_cons]

theorem bareItems_eq_map (items : List Item) : bareItems items = items.map Item.bare := by
  induction items with
  | nil => rfl
  | cons item rest ih => rw [bareItems, ih, List.map_cons]

/-- The items of an array, from behind the opening bracket on. -/
theorem readItems_append (hi : Refuses inner)
    {items : List Item} (hitems : ∀ item ∈ items, ∀ x ∈ item.children, ReadsWhole inner x)
    (rest : List Char) :
    readList (readItem inner) ']' ((Text.joined ", " (itemTexts items)).toList ++ ']' :: rest)
      = some (bareItems items, rest) := by
  rw [itemTexts_eq_map, bareItems_eq_map]
  refine readList_joined (by decide) rest items ?_ ?_
  · intro item hitem rest hr
    exact readItem_append hi (hitems item hitem) hr
  · intro rest
    have hreference : flag ['&'] (']' :: rest) = (false, ']' :: rest) := rfl
    simp [readItem, hreference, hi ']' (by decide) rest]

/-! ### Closures -/

theorem readHint_append {h : TypeHint} (hh : h.Regular) (hr : Boundary rest) :
    readHint (h.text.toList ++ rest) = some (h, rest) := by
  obtain ⟨name, nullable⟩ := h
  have hread := readName_append hh hr
  obtain ⟨c, cs, hcons⟩ := List.exists_cons_of_ne_nil hh.nonempty
  have hmark : c ≠ '?' := by
    rintro rfl
    have hchar := hh.chars '?' (by simp [hcons])
    exact absurd hchar (by decide)
  have hflag : flag ['?'] (name.toList ++ rest) = (false, name.toList ++ rest) := by
    rw [hcons]
    exact flag_cons_of_ne hmark.symm [] _
  have hnullable : flag ['?'] ('?' :: (name.toList ++ rest)) = (true, name.toList ++ rest) := rfl
  cases nullable <;> simp [TypeHint.text, readHint, hnullable, hflag, hread]

/-- A parameter without a hint begins with a mark; a closing mark is no hint either. -/
theorem readParamHint_mark {c : Char} (hc : c ∈ ['&', '.', '$', ')']) (cs : List Char) :
    readParamHint (c :: cs) = (none, c :: cs) := by
  have hhint : readHint (c :: cs) = none := by
    simp only [List.mem_cons, List.not_mem_nil, or_false] at hc
    have hname : isNameChar c = false := by
      rcases hc with rfl | rfl | rfl | rfl <;> decide
    have hmark : '?' ≠ c := by
      rcases hc with rfl | rfl | rfl | rfl <;> decide
    simp [readHint, flag_cons_of_ne hmark, readName, hname]
  rw [readParamHint, hhint]

theorem readParamHint_hint {h : TypeHint} (hh : h.Regular) (cs : List Char) :
    readParamHint (h.text.toList ++ ' ' :: cs) = (some h, cs) := by
  have hblank : Boundary (' ' :: cs) := boundary_cons (by decide) cs
  simp [readParamHint, readHint_append hh hblank]

theorem readDefault_append {default : Option Expr} (hd : ∀ x ∈ default, ReadsWhole inner x)
    (hr : Ends rest) :
    readDefault inner ((defaultText default).toList ++ rest) = some (bareOption default, rest) := by
  cases default with
  | none =>
    have hnone : after? [' ', '=', ' '] rest = none := by
      cases rest with
      | nil => rfl
      | cons c rest =>
        have hblank : ' ' ≠ c := by
          rintro rfl
          exact absurd (hr ' ' rfl) (by decide)
        simp [after?, hblank]
    simp [defaultText, readDefault, hnone, bareOption]
  | some x =>
    have hread := hd x rfl rest (.inl hr)
    simp [defaultText, readDefault, after?, hread, bareOption]

theorem boundary_default (default : Option Expr) (hr : Ends rest) :
    Boundary ((defaultText default).toList ++ rest) := by
  cases default with
  | none => simpa [defaultText] using hr.boundary
  | some x =>
    intro c hc
    simp only [defaultText, String.toList_append, List.append_assoc] at hc
    cases hc
    decide

theorem readParam_append {p : Param} (hp : IsName p.name) (hh : ∀ h ∈ p.hint, h.Regular)
    (hd : ∀ x ∈ p.default, ReadsWhole inner x) (hr : Ends rest) :
    readParam inner (p.text.toList ++ rest) = some (p.bare, rest) := by
  obtain ⟨name, hint, default, byRef, variadic, span⟩ := p
  dsimp only at hp hh hd
  have hdefault := readDefault_append hd hr
  have hname := readName_append hp (boundary_default default hr)
  have hmark : ∀ c ∈ ['&', '.', '$', ')'], ∀ cs, readParamHint (c :: cs) = (none, c :: cs) :=
    fun c hc cs => readParamHint_mark hc cs
  have hflags : ∀ cs, flag ['&'] ('$' :: cs) = (false, '$' :: cs) ∧
      flag ['.', '.', '.'] ('$' :: cs) = (false, '$' :: cs) := fun cs => ⟨rfl, rfl⟩
  cases hint with
  | none =>
    cases byRef <;> cases variadic <;>
      simp [Param.text, readParam, readVariableName, hmark, hflags, hname, hdefault, Param.bare]
  | some h =>
    have hhint := fun cs => readParamHint_hint (hh h rfl) cs
    cases byRef <;> cases variadic <;>
      simp [Param.text, readParam, readVariableName, hhint, hflags, hname, hdefault, Param.bare]

theorem paramTexts_eq_map (params : List Param) : paramTexts params = params.map Param.text := by
  induction params with
  | nil => rfl
  | cons p rest ih => rw [paramTexts, ih, List.map_cons]

theorem readCapture_append {capture : Capture} (hc : IsName capture.name) (hr : Ends rest) :
    readCapture (capture.text.toList ++ rest) = some (capture, rest) := by
  obtain ⟨name, byRef⟩ := capture
  have hread := readName_append hc hr.boundary
  have hflag : ∀ cs, flag ['&'] ('$' :: cs) = (false, '$' :: cs) := fun cs => rfl
  dsimp only at hread
  cases byRef <;> simp [Capture.text, readCapture, readVariableName, hflag, hread]

/-- The captured variables of a closure, as written behind its parameters. -/
def capturesText (captures : List Capture) : String :=
  if captures.isEmpty then "" else " use " ++ listed (captures.map Capture.text)

theorem readCaptures_append {captures : List Capture} (hc : ∀ c ∈ captures, IsName c.name)
    (hr : after? [' ', 'u', 's', 'e', ' ', '('] rest = none) :
    readCaptures ((capturesText captures).toList ++ rest) = some (captures, rest) := by
  cases captures with
  | nil => simp [capturesText, readCaptures, hr]
  | cons c cs =>
    have hlist : readList readCapture ')'
        ((Text.joined ", " ((c :: cs).map Capture.text)).toList ++ ')' :: rest)
          = some ((c :: cs).map id, rest) := by
      refine readList_joined (by decide) rest _ ?_ fun rest => rfl
      intro capture hcapture rest hr
      exact readCapture_append (hc capture hcapture) hr
    simpa [capturesText, listed, parenthesised, readCaptures, after?] using hlist

/-- The result of a closure, as written before its body. -/
def resultText (result : Option TypeHint) : String :=
  match result with
  | none => ""
  | some h => ": " ++ h.text

theorem readResult_append {result : Option TypeHint} (hh : ∀ h ∈ result, h.Regular)
    (more : List Char) :
    readResult ((resultText result).toList ++ ' ' :: more) = some (result, ' ' :: more) := by
  cases result with
  | none => simp [resultText, readResult, after?]
  | some h =>
    have hblank : Boundary (' ' :: more) := boundary_cons (by decide) more
    have hread := readHint_append (hh h rfl) hblank
    simp [resultText, readResult, after?, hread]

/-- The parameters of a closure, from behind the opening parenthesis on. -/
theorem readParams_append {c : Closure} (hc : c.Regular)
    (hd : ∀ p ∈ c.params, ∀ x ∈ p.default, ReadsWhole inner x) (rest : List Char) :
    readList (readParam inner) ')'
        ((Text.joined ", " (paramTexts c.params)).toList ++ ')' :: rest)
      = some (bareParams c.params, rest) := by
  rw [paramTexts_eq_map, bareParams_eq_map]
  refine readList_joined (by decide) rest c.params ?_ ?_
  · intro p hp rest hr
    exact readParam_append (hc.params p hp).1 (hc.params p hp).2 (hd p hp) hr
  · intro rest
    have hhint := readParamHint_mark (c := ')') (by decide) rest
    have hflags : flag ['&'] (')' :: rest) = (false, ')' :: rest) ∧
        flag ['.', '.', '.'] (')' :: rest) = (false, ')' :: rest) := ⟨rfl, rfl⟩
    simp [readParam, hhint, hflags, readVariableName]

/-- What a closure is written as from its parameters on. -/
def signatureText (c : Closure) : String :=
  listed (paramTexts c.params) ++ capturesText c.captures ++ resultText c.result ++ " "
    ++ braced " "

theorem Closure.text_eq (c : Closure) :
    c.text = (if c.isStatic then "static " else "") ++ "function "
      ++ (if c.byRef then "&" else "") ++ signatureText c := by
  obtain ⟨params, captures, result, byRef, isStatic, span⟩ := c
  cases result <;>
    simp [Closure.text, signatureText, capturesText, resultText, String.append_assoc]

theorem readSignature_append {c : Closure} (hc : c.Regular)
    (hd : ∀ p ∈ c.params, ∀ x ∈ p.default, ReadsWhole inner x) (rest : List Char) :
    readSignature inner c.isStatic c.byRef ((signatureText c).toList ++ rest)
      = some (.closure {} c.bare, rest) := by
  have hparams := fun more => readParams_append hc hd more
  have huse : ∀ more, after? [' ', 'u', 's', 'e', ' ', '(']
      ((resultText c.result).toList ++ (' ' :: '\x7b' :: more)) = none := by
    intro more
    cases c.result <;> simp [resultText, after?]
  have hcaptures := fun more => readCaptures_append hc.captures (huse more)
  have hresult := fun more => readResult_append hc.result ('\x7b' :: more)
  obtain ⟨params, captures, result, byRef, isStatic, span⟩ := c
  simp [readSignature, signatureText, listed, parenthesised, braced, after?, hparams, hcaptures,
    hresult, Closure.bare]

theorem readClosure_append {c : Closure} (hc : c.Regular)
    (hd : ∀ p ∈ c.params, ∀ x ∈ p.default, ReadsWhole inner x) (rest : List Char) :
    readClosure inner (c.text.toList ++ rest) = some (.closure {} c.bare, rest) := by
  have hsignature := readSignature_append hc hd rest
  have hflag : ∀ cs, flag ['s', 't', 'a', 't', 'i', 'c', ' '] ('f' :: cs) = (false, 'f' :: cs) :=
    fun cs => rfl
  have hstatic : ∀ cs, flag ['s', 't', 'a', 't', 'i', 'c', ' ']
      ('s' :: 't' :: 'a' :: 't' :: 'i' :: 'c' :: ' ' :: cs) = (true, cs) := fun cs => rfl
  have hopening : ∃ more, (signatureText c).toList ++ rest = '(' :: more := by
    simp [signatureText, listed, parenthesised]
  have hplain : flag ['&'] ((signatureText c).toList ++ rest)
      = (false, (signatureText c).toList ++ rest) := by
    obtain ⟨more, hmore⟩ := hopening
    rw [hmore]
    rfl
  rw [Closure.text_eq]
  cases hs : c.isStatic <;> cases hb : c.byRef <;> rw [hs, hb] at hsignature <;>
    simp [readClosure, after?, hflag, hstatic, hplain, hsignature]

end Inner

end PhpCheck.SourceReader
