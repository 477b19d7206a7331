/-
  PhpCheck/Proofs/Types/RoundTrip.lean
  ====================================
  **Types that are written and read back** — which types survive it.

  The text of a type has no blanks and no bar, and a question mark only at its
  start (`PhpType.plain_text`), so the stages of the reader that take these off
  leave the text of the kind, and the kind decides alone (`reads_back_iff`).
  Each type without a class name is read back, and each `static`; of the other
  types those are that name a class and no keyword (`round_trip_iff`).

  A type that was read has a class name, if it has one at all, that was read as
  such, but this may be a keyword: the text may have had a backslash before it,
  which is taken off after keywords are looked for (`read_again_iff`).
-/
import PhpCheck.Proofs.Types.ClassName

namespace PhpCheck

variable {t : PhpType} {cs : List Char} {s name : String}

/-! ### Stages of the reader -/

theorem splitBars_eq_splitOn (cs : List Char) : splitBars cs = cs.splitOn '|' := by
  induction cs with
  | nil => rfl
  | cons c rest ih =>
    rw [splitBars, List.splitOn_cons_eq_if_modifyHead, ih]
    by_cases hbar : c = '|'
    · simp [hbar]
    · rw [if_neg hbar, if_neg (by simpa using hbar)]
      cases hparts : rest.splitOn '|' with
      | nil => exact absurd hparts (List.splitOn_ne_nil _ _)
      | cons part parts => rfl

theorem infix_of_mem_splitBars {part : List Char} (h : part ∈ splitBars cs) : part <:+: cs := by
  rw [splitBars_eq_splitOn] at h
  obtain ⟨i, hi⟩ := List.mem_iff_getElem?.mp h
  have hmem : part ∈ (cs.splitOn '|').intersperse ['|'] := by
    apply List.mem_of_getElem? (i := 2 * i)
    rw [List.getElem?_intersperse_two_mul, hi]
  have hwhole : ((cs.splitOn '|').intersperse ['|']).flatten = cs := List.intercalate_splitOn '|'
  have hpart := List.infix_of_mem_flatten hmem
  rwa [hwhole] at hpart

theorem splitMark_isInfix (cs : List Char) : (splitMark cs).1 <:+: cs := by
  unfold splitMark
  split
  · rename_i rest hmarked
    have hrest : rest <:+: Text.trim cs := hmarked ▸ (List.suffix_cons '?' rest).isInfix
    exact (Text.trim_isInfix rest).trans (hrest.trans (Text.trim_isInfix cs))
  · exact Text.trim_isInfix cs

/-- Where there are backslashes at the start, one stands before what is left without them. -/
theorem suffix_of_dropWhile_root (h : cs.dropWhile (· == '\\') ≠ cs) :
    ('\\' :: cs.dropWhile (· == '\\')) <:+ cs := by
  induction cs with
  | nil => exact absurd rfl h
  | cons c rest ih =>
    by_cases hroot : c = '\\'
    · subst hroot
      have hdrop : ('\\' :: rest).dropWhile (· == '\\') = rest.dropWhile (· == '\\') := by
        simp
      rw [hdrop]
      by_cases hrest : rest.dropWhile (· == '\\') = rest
      · exact ⟨[], by rw [hrest, List.nil_append]⟩
      · exact (ih hrest).trans (List.suffix_cons _ _)
    · simp [hroot] at h

theorem mem_of_splitUnion? {part : List Char} {union : Bool}
    (h : splitUnion? cs = some (part, union)) : part ∈ (splitBars cs).map Text.trim := by
  unfold splitUnion? at h
  split at h
  · rename_i a hparts
    cases h
    simp [hparts]
  · rename_i a b hparts
    obtain ⟨-, hpart⟩ := Option.ite_none_left_eq_some.mp h
    cases hpart
    rw [hparts]
    by_cases ha : isNullPart a = true
    · simp [ha]
    · simp [ha]
  · cases h

/-- The text has neither blanks nor a mark that null is allowed. -/
def Plain (cs : List Char) : Prop := ∀ c ∈ cs, Text.isBlank c = false ∧ c ≠ '?' ∧ c ≠ '|'

theorem plain_iff_all :
    Plain cs ↔ (cs.all fun c => !Text.isBlank c && c != '?' && c != '|') = true := by
  simp [Plain, and_assoc]

instance (cs : List Char) : Decidable (Plain cs) := decidable_of_iff _ plain_iff_all.symm

namespace Plain

theorem trim_eq (h : Plain cs) : Text.trim cs = cs :=
  Text.trim_eq_self fun c hc => (h c hc).1

theorem splitMark_eq (h : Plain cs) : splitMark cs = (cs, false) := by
  unfold splitMark
  rw [h.trim_eq]
  cases cs with
  | nil => rfl
  | cons c rest =>
    have hmark : c ≠ '?' := (h c List.mem_cons_self).2.1
    split
    · rename_i heq
      cases heq
      exact absurd rfl hmark
    · rfl

theorem splitMark_marked (h : Plain cs) : splitMark ('?' :: cs) = (cs, true) := by
  have hmarked : Text.trim ('?' :: cs) = '?' :: cs := by
    apply Text.trim_eq_self
    intro c hc
    rcases List.mem_cons.mp hc with rfl | hc
    · decide
    · exact (h c hc).1
  simp only [splitMark, hmarked, h.trim_eq]

theorem splitUnion?_eq (h : Plain cs) : splitUnion? cs = some (cs, false) := by
  have hbar : '|' ∉ cs := by
    intro hmem
    exact (h '|' hmem).2.2 rfl
  unfold splitUnion?
  rw [splitBars_eq_splitOn, List.splitOn_eq_singleton hbar, List.map_singleton, h.trim_eq]

end Plain

theorem IsClassName.plain (h : IsClassName name) : Plain name.toList := by
  intro c hc
  have hchar := isClassNameChar_iff.mpr (h.chars c hc)
  refine ⟨isBlank_of_isClassNameChar hchar, ?_, ?_⟩
  · rintro rfl
    exact absurd hchar (by decide)
  · rintro rfl
    exact absurd hchar (by decide)

/-! ### Kinds -/

namespace Kind

/-- A keyword stands for a kind without a class. -/
theorem ne_of_ofKeyword? {kind : Kind} (h : ofKeyword? s = some kind) (name : String) :
    kind ≠ .object name ∧ kind ≠ .static name := by
  unfold ofKeyword? at h
  split at h <;> cases h <;> exact ⟨nofun, nofun⟩

theorem ofChars?_of_isClassName (h : IsClassName name) :
    ofChars? name.toList = some ((ofKeyword? (Text.lowercase name)).getD (.object name)) := by
  have hbody : staticBody? name.toList = none := by
    unfold staticBody?
    split
    · rename_i rest hname
      have hopen : '(' ∈ name.toList := by simp [hname]
      have hother := isClassNameChar_iff.mpr (h.chars '(' hopen)
      exact absurd hother (by decide)
    · rfl
  unfold ofChars?
  rw [String.ofList_toList]
  cases ofKeyword? (Text.lowercase name) with
  | some kind => rfl
  | none =>
    rw [hbody]
    simp [h.className?_eq]

theorem toList_text_static (name : String) :
    (text (.static name)).toList = "static(".toList ++ (name.toList ++ [')']) := by
  simp [text]

theorem ofChars?_static (h : IsClassName name) :
    ofChars? (text (.static name)).toList = some (.static name) := by
  have hkeyword : ofKeyword? (Text.lowercase (text (.static name))) = none := by
    cases hread : ofKeyword? (Text.lowercase (text (.static name))) with
    | none => rfl
    | some kind =>
      have hmem := ofKeyword?_isSome_iff.mp (Option.isSome_of_eq_some hread)
      have hopen : '(' ∈ (Text.lowercase (text (.static name))).toList := by
        simp [Text.lowercase, text]
      have hkeywords : ∀ w ∈ keywords, '(' ∉ w.toList := by decide
      exact absurd hopen (hkeywords _ hmem)
  have hbody : staticBody? (text (.static name)).toList = some name.toList := by
    rw [toList_text_static]
    simp [staticBody?]
  unfold ofChars?
  rw [String.ofList_toList, hkeyword, hbody]
  simp [h.className?_eq]

/-- The ways in which a text says a kind. -/
inductive SaidBy (cs : List Char) : Kind → Prop where
  | keyword {kind : Kind} :
      ofKeyword? (Text.lowercase (String.ofList cs)) = some kind → SaidBy cs kind
  | static {body : List Char} {name : String} :
      staticBody? cs = some body → className? body = some name → SaidBy cs (.static name)
  | object {name : String} :
      ofKeyword? (Text.lowercase (String.ofList cs)) = none → staticBody? cs = none →
      className? cs = some name → SaidBy cs (.object name)

theorem saidBy_of_ofChars? {kind : Kind} (h : ofChars? cs = some kind) : SaidBy cs kind := by
  unfold ofChars? at h
  cases hread : ofKeyword? (Text.lowercase (String.ofList cs)) with
  | some found =>
    rw [hread] at h
    cases h
    exact .keyword hread
  | none =>
    rw [hread] at h
    cases hbody : staticBody? cs with
    | some body =>
      rw [hbody] at h
      obtain ⟨name, hname, rfl⟩ := Option.map_eq_some_iff.mp h
      exact .static hbody hname
    | none =>
      rw [hbody] at h
      obtain ⟨name, hname, rfl⟩ := Option.map_eq_some_iff.mp h
      exact .object hread hbody hname

theorem SaidBy.isClassName {kind : Kind} (h : SaidBy cs kind)
    (hname : kind = .object name ∨ kind = .static name) : IsClassName name := by
  cases h with
  | keyword hread =>
    obtain ⟨hobject, hstatic⟩ := ne_of_ofKeyword? hread name
    rcases hname with hname | hname
    · exact absurd hname hobject
    · exact absurd hname hstatic
  | static _ hread =>
    rcases hname with ⟨⟨⟩⟩ | ⟨⟨⟩⟩
    exact (eq_of_className? hread).2
  | object _ _ hread =>
    rcases hname with ⟨⟨⟩⟩ | ⟨⟨⟩⟩
    exact (eq_of_className? hread).2

end Kind

namespace PhpType

theorem ofText_eq_ok_iff : ofText s = .ok t ↔ ofText? s = some t := by
  unfold ofText
  cases ofText? s <;> simp

theorem className?_eq_some_iff :
    t.className? = some name ↔ t.kind = .object name ∨ t.kind = .static name := by
  unfold className?
  cases t.kind <;> simp

/-! ### What is written -/

/-- The text of a kind whose class name is one. -/
theorem plain_text (h : ∀ name, t.className? = some name → IsClassName name) :
    Plain t.kind.text.toList := by
  cases hkind : t.kind with
  | object name => exact (h name (className?_eq_some_iff.mpr (.inl hkind))).plain
  | static name =>
    have hplain := (h name (className?_eq_some_iff.mpr (.inr hkind))).plain
    have hopen : Plain "static(".toList := by decide
    have hclose : Plain [')'] := by decide
    rw [Kind.toList_text_static]
    exact List.forall_mem_append.mpr ⟨hopen, List.forall_mem_append.mpr ⟨hplain, hclose⟩⟩
  | _ => decide

theorem ofText?_of_splitMark {marked : Bool} (hsplit : splitMark s.toList = (cs, marked))
    (h : Plain cs) : ofText? s = (Kind.ofChars? cs).map fun kind => of kind marked := by
  unfold ofText?
  simp only [hsplit, h.splitUnion?_eq, Option.bind_eq_bind, Option.bind_some, Bool.or_false]
  cases Kind.ofChars? cs <;> rfl

/-- Of the text of a type the kind is read, and whether null is allowed. -/
theorem ofText?_text_of_plain (h : Plain t.kind.text.toList) :
    ofText? t.text = (Kind.ofChars? t.kind.text.toList).map
      fun kind => of kind (decide (t.nullable = true ∧ t.kind ≠ .null)) := by
  unfold text
  by_cases hmark : t.nullable = true ∧ t.kind ≠ .null
  · have hlist : ("?" ++ t.kind.text).toList = '?' :: t.kind.text.toList := by
      rw [String.toList_append]
      rfl
    rw [if_pos hmark, decide_eq_true hmark]
    exact ofText?_of_splitMark (hlist ▸ h.splitMark_marked) h
  · rw [if_neg hmark, decide_eq_false hmark]
    exact ofText?_of_splitMark h.splitMark_eq h

/-- Whether a type is read back is settled by its kind. -/
theorem reads_back_iff (h : Plain t.kind.text.toList) :
    ofText? t.text = some t ↔ Kind.ofChars? t.kind.text.toList = some t.kind := by
  rw [ofText?_text_of_plain h]
  constructor
  · intro hread
    obtain ⟨kind, hkind, hof⟩ := Option.map_eq_some_iff.mp hread
    rw [hkind, ← hof, kind_of]
  · intro hkind
    rw [hkind, Option.map_some, Option.some_inj]
    refine eq_of_kind_nullable rfl ?_
    by_cases hnull : t.kind = .null
    · simp [hnull, t.null_nullable hnull]
    · simp [hnull]

/-- A type whose class name is one is read back, unless it is the class of a keyword. -/
theorem reads_back_of_isClassName (h : ∀ name, t.className? = some name → IsClassName name) :
    ofText? t.text = some t ↔ ∀ name, t.kind = .object name → ¬ IsKeyword name := by
  rw [reads_back_iff (plain_text h)]
  cases hkind : t.kind with
  | object name =>
    have hname : IsClassName name := h name (className?_eq_some_iff.mpr (.inl hkind))
    show Kind.ofChars? name.toList = some (.object name) ↔ _
    rw [Kind.ofChars?_of_isClassName hname, Option.some_inj]
    constructor
    · rintro hread other ⟨⟩ hkeyword
      obtain ⟨kind, hkeyword⟩ := Option.isSome_iff_exists.mp (isKeyword_iff.mp hkeyword)
      rw [hkeyword] at hread
      exact (Kind.ne_of_ofKeyword? hkeyword name).1 hread
    · intro hother
      have hnone := mt isKeyword_iff.mpr (hother name rfl)
      rw [Option.not_isSome_iff_eq_none] at hnone
      rw [hnone, Option.getD_none]
  | static name =>
    have hname : IsClassName name := h name (className?_eq_some_iff.mpr (.inr hkind))
    simp [Kind.ofChars?_static hname]
  | _ =>
    refine iff_of_true ?_ nofun
    decide

/-! ### What was read -/

/-- A type is read from the text of its kind, a part of the whole text. -/
theorem exists_chars_of_ofText? (h : ofText? s = some t) :
    ∃ cs, cs <:+: s.toList ∧ Text.trim cs = cs ∧ Kind.ofChars? cs = some t.kind := by
  unfold ofText? at h
  obtain ⟨⟨cs, union⟩, hunion, h⟩ := Option.bind_eq_some_iff.mp h
  obtain ⟨kind, hkind, h⟩ := Option.bind_eq_some_iff.mp h
  cases h
  obtain ⟨part, hpart, rfl⟩ := List.mem_map.mp (mem_of_splitUnion? hunion)
  have hmarked := splitMark_isInfix s.toList
  refine ⟨Text.trim part, ?_, Text.trim_trim part, hkind⟩
  exact (Text.trim_isInfix part).trans ((infix_of_mem_splitBars hpart).trans hmarked)

theorem isClassName_of_ofText? (h : ofText? s = some t) (hname : t.className? = some name) :
    IsClassName name := by
  obtain ⟨cs, -, -, hread⟩ := exists_chars_of_ofText? h
  exact (Kind.saidBy_of_ofChars? hread).isClassName (className?_eq_some_iff.mp hname)

/-- The class of a keyword is read only where a backslash stands before the keyword. -/
theorem infix_of_isKeyword (h : ofText? s = some t) (hobject : t.kind = .object name)
    (hkeyword : IsKeyword name) : ('\\' :: name.toList) <:+: s.toList := by
  obtain ⟨kind, hkind⟩ := Option.isSome_iff_exists.mp (isKeyword_iff.mp hkeyword)
  obtain ⟨cs, hpart, htrim, hread⟩ := exists_chars_of_ofText? h
  rw [hobject] at hread
  cases Kind.saidBy_of_ofChars? hread with
  | keyword hfound => exact absurd rfl (Kind.ne_of_ofKeyword? hfound name).1
  | object hnone _ hclass =>
    obtain ⟨hrest, -⟩ := eq_of_className? hclass
    rw [htrim] at hrest
    have hroot : cs.dropWhile (· == '\\') ≠ cs := by
      intro heq
      rw [← hrest.trans heq, String.ofList_toList, hkind] at hnone
      cases hnone
    have hsuffix := suffix_of_dropWhile_root hroot
    rw [← hrest] at hsuffix
    exact hsuffix.isInfix.trans hpart

/-- The text of the class of a keyword is that of a type without a class. -/
theorem exists_read_of_isKeyword (hname : IsClassName name) (hobject : t.kind = .object name)
    (hkeyword : IsKeyword name) : ∃ u, ofText? t.text = some u ∧ u.className? = none := by
  obtain ⟨kind, hkind⟩ := Option.isSome_iff_exists.mp (isKeyword_iff.mp hkeyword)
  have hplain : Plain t.kind.text.toList := by
    apply plain_text
    intro other hother
    simp only [className?, hobject, Option.some_inj] at hother
    rwa [← hother]
  have hread := ofText?_text_of_plain hplain
  have htext : t.kind.text = name := by rw [hobject]; rfl
  rw [htext, Kind.ofChars?_of_isClassName hname, hkind] at hread
  refine ⟨_, hread, ?_⟩
  rw [Option.getD_some, Option.eq_none_iff_forall_not_mem]
  intro other hother
  obtain ⟨hnotObject, hnotStatic⟩ := Kind.ne_of_ofKeyword? hkind other
  rcases className?_eq_some_iff.mp hother with hother | hother
  · exact hnotObject hother
  · exact hnotStatic hother

/-! ### The round trip -/

theorem reads_back_iff_names :
    ofText? t.text = some t ↔
      (∀ name, t.className? = some name → IsClassName name) ∧
        ∀ name, t.kind = .object name → ¬ IsKeyword name := by
  constructor
  · intro hread
    have hnames : ∀ name, t.className? = some name → IsClassName name := by
      intro name hname
      exact isClassName_of_ofText? hread hname
    exact ⟨hnames, (reads_back_of_isClassName hnames).mp hread⟩
  · rintro ⟨hnames, hother⟩
    exact (reads_back_of_isClassName hnames).mpr hother

/-- **Which types are read back.**  Those without a class name, those that are `static` of a class
    name, and those that name a class by a class name that is no keyword, whatever its case. -/
theorem round_trip_iff (t : PhpType) :
    ofText t.text = .ok t ↔
      t.className? = none ∨
      (∃ name, t.kind = .static name ∧ IsClassName name) ∨
      ∃ name, t.kind = .object name ∧ IsClassName name ∧ ¬ IsKeyword name := by
  rw [ofText_eq_ok_iff, reads_back_iff_names]
  unfold className?
  cases t.kind <;> simp

/-- **A type that was read is read back, unless it is the class of a keyword.**  Such a class was
    read from a text with a backslash before the keyword, and its own text is that of a type
    without a class. -/
theorem read_again_iff (h : ofText s = .ok t) :
    (ofText t.text = .ok t ↔ ∀ name, t.kind = .object name → ¬ IsKeyword name) ∧
    ∀ name, t.kind = .object name → IsKeyword name →
      ('\\' :: name.toList) <:+: s.toList ∧
        ∃ u, ofText t.text = .ok u ∧ u.className? = none := by
  rw [ofText_eq_ok_iff] at h
  have hnames : ∀ name, t.className? = some name → IsClassName name := by
    intro name hname
    exact isClassName_of_ofText? h hname
  constructor
  · rw [ofText_eq_ok_iff]
    exact reads_back_of_isClassName hnames
  · intro name hobject hkeyword
    have hname : IsClassName name := hnames name (className?_eq_some_iff.mpr (.inl hobject))
    refine ⟨infix_of_isKeyword h hobject hkeyword, ?_⟩
    obtain ⟨u, hread, hnone⟩ := exists_read_of_isKeyword hname hobject hkeyword
    exact ⟨u, ofText_eq_ok_iff.mpr hread, hnone⟩

/-- A dog of the zoo, or none, is read back. -/
theorem zoo_dog_read_again :
    ofText " null | \\Zoo\\Dog" = .ok (.object "Zoo\\Dog" true) ∧
      ofText (object "Zoo\\Dog" true).text = .ok (.object "Zoo\\Dog" true) := by
  have hread : ofText " null | \\Zoo\\Dog" = .ok (.object "Zoo\\Dog" true) :=
    ofText_eq_ok_iff.mpr (by decide)
  refine ⟨hread, (read_again_iff hread).1.mpr ?_⟩
  rintro name ⟨⟩
  unfold IsKeyword
  decide

/-- The class `int`, as it is read behind a backslash, is read again as the kind. -/
theorem hidden_int_read_otherwise :
    ofText "\\int" = .ok (.object "int") ∧
      ofText (object "int").text = .ok (of .integer false) ∧
      of .integer false ≠ .object "int" :=
  ⟨ofText_eq_ok_iff.mpr (by decide), ofText_eq_ok_iff.mpr (by decide), by decide⟩

end PhpType

end PhpCheck
