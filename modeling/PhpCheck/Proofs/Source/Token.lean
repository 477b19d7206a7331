/-
  PhpCheck/Proofs/Source/Token.lean
  =================================
  **Tokens are read back** — marks, names, literals, lists and the signs between
  operands.

  A token is read up to where it ends, so each lemma is about a token with a rest
  behind it.  Names and numbers end where the rest does not go on with a character
  of theirs (`Boundary`); the other tokens end by themselves.
-/
import PhpCheck.Proofs.Source.Reader

namespace PhpCheck.SourceReader

/-! ### Marks -/

theorem flag_cons_of_ne {c d : Char} (h : c ≠ d) (mark rest : List Char) :
    flag (c :: mark) (d :: rest) = (false, d :: rest) := by
  simp [flag, after?, h]

/-! ### Names -/

/-- The text is a name, with or without namespaces. -/
structure IsName (s : String) : Prop where
  nonempty : s.toList ≠ []
  chars : ∀ c ∈ s.toList, isNameChar c = true
  first : ∀ c ∈ s.toList.head?, c.isDigit = false

theorem isName_iff (s : String) : IsName s ↔
    s.toList.all isNameChar = true ∧ s.toList.head?.any (fun c => !c.isDigit) = true := by
  constructor
  · rintro ⟨hne, hchars, hfirst⟩
    obtain ⟨c, cs, hcons⟩ := List.exists_cons_of_ne_nil hne
    have hdigit := hfirst c (by simp [hcons])
    exact ⟨List.all_eq_true.mpr hchars, by simp [hcons, hdigit]⟩
  · rintro ⟨hchars, hfirst⟩
    refine ⟨?_, List.all_eq_true.mp hchars, fun c hc => ?_⟩
    · intro hnil
      simp [hnil] at hfirst
    · rw [Option.mem_def.mp hc] at hfirst
      simpa using hfirst

instance (s : String) : Decidable (IsName s) := decidable_of_iff' _ (isName_iff s)

/-- No name and no number goes on here. -/
def Boundary (rest : List Char) : Prop := ∀ c ∈ rest.head?, isNameChar c = false ∧ c ≠ '.'

theorem forall_mem_head?_cons {p : Char → Prop} {c : Char} (h : p c) (rest : List Char) :
    ∀ d ∈ (c :: rest).head?, p d := by
  rintro d ⟨⟩
  exact h

theorem boundary_cons {c : Char} (h : isNameChar c = false ∧ c ≠ '.') (rest : List Char) :
    Boundary (c :: rest) :=
  forall_mem_head?_cons h rest

theorem isNameChar_of_isDigit {c : Char} (h : c.isDigit = true) : isNameChar c = true := by
  simp [isNameChar, Char.isAlphanum, h]

theorem not_isDigit {c : Char} (h : isNameChar c = false) : c.isDigit = false := by
  cases hd : c.isDigit with
  | false => rfl
  | true =>
    rw [isNameChar_of_isDigit hd] at h
    cases h

theorem not_isNumberChar {c : Char} (h : isNameChar c = false) (hc : c ≠ '.') :
    isNumberChar c = false := by
  have he : c ≠ 'e' := by
    rintro rfl
    exact absurd h (by decide)
  simp [isNumberChar, not_isDigit h, hc, he]

/-- A token whose characters are of one sort ends where the rest has none of that sort. -/
theorem takeWhile_token {p : Char → Bool} {token rest : List Char} (ht : ∀ c ∈ token, p c = true)
    (hr : ∀ c ∈ rest.head?, p c = false) : (token ++ rest).takeWhile p = token := by
  rw [List.takeWhile_append_of_pos ht]
  cases rest with
  | nil => simp
  | cons c rest => simp [hr c rfl]

theorem dropWhile_token {p : Char → Bool} {token rest : List Char} (ht : ∀ c ∈ token, p c = true)
    (hr : ∀ c ∈ rest.head?, p c = false) : (token ++ rest).dropWhile p = rest := by
  rw [List.dropWhile_append_of_pos ht]
  cases rest with
  | nil => rfl
  | cons c rest => simp [hr c rfl]

theorem readName_append {s : String} {rest : List Char} (hs : IsName s) (hr : Boundary rest) :
    readName (s.toList ++ rest) = some (s, rest) := by
  have hend : ∀ c ∈ rest.head?, isNameChar c = false := fun c hc => (hr c hc).1
  rw [readName, takeWhile_token hs.chars hend, dropWhile_token hs.chars hend]
  split
  · rename_i hempty
    exact absurd hempty hs.nonempty
  · rw [String.ofList_toList]

/-! ### Numbers -/

theorem spanNumber_append {token rest : List Char} (ht : ∀ c ∈ token, isNumberChar c = true)
    (hlast : token.getLast? ≠ some 'e') (hr : Boundary rest) :
    spanNumber (token ++ rest) = (token, rest) := by
  have hend : ∀ c ∈ rest.head?, isNumberChar c = false :=
    fun c hc => not_isNumberChar (hr c hc).1 (hr c hc).2
  rw [spanNumber, takeWhile_token ht hend, dropWhile_token ht hend]
  split
  · exact absurd ‹_› hlast
  · rfl

/-- A number with a negative exponent. -/
theorem spanNumber_exponent {token digits rest : List Char}
    (ht : ∀ c ∈ token, isNumberChar c = true) (hd : ∀ c ∈ digits, c.isDigit = true)
    (hr : Boundary rest) :
    spanNumber ((token ++ ['e']) ++ '-' :: digits ++ rest)
      = ((token ++ ['e']) ++ '-' :: digits, rest) := by
  have htoken : ∀ c ∈ token ++ ['e'], isNumberChar c = true := by
    intro c hc
    rcases List.mem_append.mp hc with hc | hc
    · exact ht c hc
    · rw [List.mem_singleton.mp hc]
      decide
  have hminus : ∀ c ∈ ('-' :: digits ++ rest).head?, isNumberChar c = false :=
    forall_mem_head?_cons (by decide) _
  have hend : ∀ c ∈ rest.head?, c.isDigit = false := fun c hc => not_isDigit (hr c hc).1
  rw [List.append_assoc, spanNumber, takeWhile_token htoken hminus, dropWhile_token htoken hminus]
  simp [takeWhile_token hd hend, dropWhile_token hd hend]

/-- A text that is read as one number: it begins with a digit and is split off as a whole. -/
structure IsNumber (token : List Char) : Prop where
  first : ∃ c rest, token = c :: rest ∧ c.isDigit = true
  span : ∀ rest, Boundary rest → spanNumber (token ++ rest) = (token, rest)

theorem isNumberChar_of_isDigit {c : Char} (h : c.isDigit = true) : isNumberChar c = true := by
  simp [isNumberChar, h]

theorem isDigit_of_mem_digitsText {n : Nat} {c : Char} (h : c ∈ Binary64.digitsText n) :
    c.isDigit = true :=
  Nat.isDigit_of_mem_toDigits (by decide) (by decide) h

theorem digitsText_ne_nil (n : Nat) : Binary64.digitsText n ≠ [] := Nat.toDigits_ne_nil

/-- What ends with digits does not end with the sign of an exponent. -/
theorem getLast?_append_digits {token digits : List Char} (hd : ∀ c ∈ digits, c.isDigit = true)
    (hne : digits ≠ []) : (token ++ digits).getLast? ≠ some 'e' := by
  rw [List.getLast?_append]
  cases hl : digits.getLast? with
  | none => exact absurd (List.getLast?_eq_none_iff.mp hl) hne
  | some c =>
    rintro ⟨⟩
    have he := hd 'e' (List.mem_of_getLast? hl)
    cases he

theorem isNumber_of_digits {token : List Char} (hne : token ≠ [])
    (hd : ∀ c ∈ token, c.isDigit = true) : IsNumber token where
  first := by
    obtain ⟨c, rest, rfl⟩ := List.exists_cons_of_ne_nil hne
    exact ⟨c, rest, rfl, hd c List.mem_cons_self⟩
  span rest hr := by
    refine spanNumber_append (fun c hc => isNumberChar_of_isDigit (hd c hc)) ?_ hr
    simpa using @getLast?_append_digits [] token hd hne

/-- Digits, a point, and digits. -/
theorem isNumber_point {whole places : List Char} (hw : ∀ c ∈ whole, c.isDigit = true)
    (hne : whole ≠ []) (hp : ∀ c ∈ places, c.isDigit = true) (hne' : places ≠ []) :
    IsNumber (whole ++ '.' :: places) where
  first := by
    obtain ⟨c, rest, rfl⟩ := List.exists_cons_of_ne_nil hne
    exact ⟨c, rest ++ '.' :: places, rfl, hw c List.mem_cons_self⟩
  span rest hr := by
    refine spanNumber_append ?_ ?_ hr
    · intro c hc
      rcases List.mem_append.mp hc with hc | hc
      · exact isNumberChar_of_isDigit (hw c hc)
      · rcases List.mem_cons.mp hc with rfl | hc
        · decide
        · exact isNumberChar_of_isDigit (hp c hc)
    · have hsplit : whole ++ '.' :: places = (whole ++ ['.']) ++ places := by simp
      rw [hsplit]
      exact getLast?_append_digits hp hne'

/-- One digit, perhaps others behind a point, and an exponent. -/
theorem isNumber_exponent {d : Char} {places power : List Char} (hd : d.isDigit = true)
    (hp : ∀ c ∈ places, isNumberChar c = true) (hpower : ∀ c ∈ power, c.isDigit = true)
    (hne : power ≠ []) (negative : Bool) :
    IsNumber (d :: places ++ 'e' :: if negative then '-' :: power else power) where
  first := ⟨d, _, rfl, hd⟩
  span rest hr := by
    have hmantissa : ∀ c ∈ d :: places, isNumberChar c = true := by
      intro c hc
      rcases List.mem_cons.mp hc with rfl | hc
      · exact isNumberChar_of_isDigit hd
      · exact hp c hc
    cases negative with
    | true => simpa using spanNumber_exponent hmantissa hpower hr
    | false =>
      refine spanNumber_append ?_ ?_ hr
      · intro c hc
        rcases List.mem_append.mp hc with hc | hc
        · exact hmantissa c hc
        · rcases List.mem_cons.mp hc with rfl | hc
          · decide
          · exact isNumberChar_of_isDigit (hpower c hc)
      · have hsplit : d :: places ++ 'e' :: power = (d :: places ++ ['e']) ++ power := by simp
        simp only [Bool.false_eq_true, if_false]
        rw [hsplit]
        exact getLast?_append_digits hpower hne

theorem isDigit_of_mem_zeros {n : Nat} {c : Char} (h : c ∈ List.replicate n '0') :
    c.isDigit = true := by
  rw [List.eq_of_mem_replicate h]
  decide

theorem isNumber_positional {digits : List Char} (hd : ∀ c ∈ digits, c.isDigit = true)
    (hne : digits ≠ []) (point : Int) : IsNumber (Binary64.positional digits point) := by
  have hzero : '0'.isDigit = true := by decide
  unfold Binary64.positional
  split
  · refine @isNumber_point ['0'] _ (by simp [hzero]) (by simp) ?_ (by simp [hne])
    intro c hc
    rcases List.mem_append.mp hc with hc | hc
    · exact isDigit_of_mem_zeros hc
    · exact hd c hc
  · rename_i hpoint
    refine isNumber_point ?_ ?_ ?_ ?_
    · intro c hc
      rcases List.mem_append.mp hc with hc | hc
      · exact hd c (List.mem_of_mem_take hc)
      · exact isDigit_of_mem_zeros hc
    · have hpos : point.toNat ≠ 0 := by omega
      simp [hne, hpos]
    · split
      · simp [hzero]
      · exact fun c hc => hd c (List.mem_of_mem_drop hc)
    · split
      · simp
      · rename_i hplaces
        simpa using hplaces

theorem isNumber_scientific {digits : List Char} (hd : ∀ c ∈ digits, c.isDigit = true)
    (hne : digits ≠ []) (exponent : Int) : IsNumber (Binary64.scientific digits exponent) := by
  obtain ⟨d, others, rfl⟩ := List.exists_cons_of_ne_nil hne
  have hfirst := hd d List.mem_cons_self
  have hpower : ∀ n, ∀ c ∈ Binary64.digitsText n, c.isDigit = true :=
    fun n c hc => isDigit_of_mem_digitsText hc
  have hpoint : isNumberChar '.' = true := by decide
  unfold Binary64.scientific
  cases others with
  | nil =>
    dsimp only
    split
    · exact @isNumber_exponent d [] _ hfirst (by simp) (hpower _) (digitsText_ne_nil _) true
    · exact @isNumber_exponent d [] _ hfirst (by simp) (hpower _) (digitsText_ne_nil _) false
  | cons c rest =>
    have hplaces : ∀ k ∈ '.' :: c :: rest, isNumberChar k = true := by
      intro k hk
      rcases List.mem_cons.mp hk with rfl | hk
      · exact hpoint
      · exact isNumberChar_of_isDigit (hd k (List.mem_cons_of_mem _ hk))
    dsimp only
    split
    · exact isNumber_exponent hfirst hplaces (hpower _) (digitsText_ne_nil _) true
    · exact isNumber_exponent hfirst hplaces (hpower _) (digitsText_ne_nil _) false

/-- What stands behind the point or the sign of an exponent is not an integer. -/
theorem not_all_isDigit_decimal (d : Binary64.Decimal) : d.text.all Char.isDigit = false := by
  have hpoint : '.'.isDigit = false := by decide
  have hexponent : 'e'.isDigit = false := by decide
  unfold Binary64.Decimal.text Binary64.positional Binary64.scientific
  dsimp only
  split
  · decide
  · split
    · split <;> simp [hpoint]
    · simp [hexponent]

theorem isNumber_decimal (d : Binary64.Decimal) : IsNumber d.text := by
  have hd : ∀ c ∈ Binary64.digitsText d.digits, c.isDigit = true :=
    fun c hc => isDigit_of_mem_digitsText hc
  have hne := digitsText_ne_nil d.digits
  unfold Binary64.Decimal.text
  dsimp only
  split
  · have hzero : '0'.isDigit = true := by decide
    exact @isNumber_point ['0'] ['0'] (by simp [hzero]) (by simp) (by simp [hzero]) (by simp)
  · split
    · exact isNumber_positional hd hne _
    · exact isNumber_scientific hd hne _

theorem readNumber_eq (float? : List Char → Option Binary64) {token rest : List Char}
    (ht : IsNumber token) (hr : Boundary rest) :
    readNumber float? (token ++ rest) =
      if token.all Char.isDigit then some (.int {} (Nat.ofDigitChars 10 token 0), rest)
      else (float? token).map fun value => (.float {} value, rest) := by
  rw [readNumber, ht.span rest hr]

theorem toList_toString_int {value : Int} (h : 0 ≤ value) :
    (toString value).toList = Binary64.digitsText value.toNat := by
  obtain ⟨n, rfl⟩ := Int.eq_ofNat_of_zero_le h
  have htext : toString (n : Int) = n.repr := rfl
  rw [htext, Nat.repr_eq_ofList_toDigits, String.toList_ofList, Int.toNat_natCast]
  rfl

theorem readNumber_int (float? : List Char → Option Binary64) {value : Int} (h : 0 ≤ value)
    {rest : List Char} (hr : Boundary rest) :
    readNumber float? ((toString value).toList ++ rest) = some (.int {} value, rest) := by
  have hd : ∀ c ∈ Binary64.digitsText value.toNat, c.isDigit = true :=
    fun c hc => isDigit_of_mem_digitsText hc
  have hvalue : Nat.ofDigitChars 10 (Binary64.digitsText value.toNat) 0 = value.toNat :=
    Nat.ofDigitChars_ten_toDigits
  rw [toList_toString_int h, readNumber_eq float? (isNumber_of_digits (digitsText_ne_nil _) hd) hr,
    if_pos (List.all_eq_true.mpr hd), hvalue, Int.toNat_of_nonneg h]

theorem toList_text_finite (mantissa : Nat) (exponent : Int) :
    (Binary64.finite false mantissa exponent).text.toList
      = (Binary64.shortest .greater mantissa exponent).text := by
  simp [Binary64.text, Binary64.textBy]

theorem readNumber_float {float? : List Char → Option Binary64} {mantissa : Nat} {exponent : Int}
    (hfloat : float? (Binary64.finite false mantissa exponent).text.toList
      = some (.finite false mantissa exponent)) {rest : List Char} (hr : Boundary rest) :
    readNumber float? ((Binary64.finite false mantissa exponent).text.toList ++ rest)
      = some (.float {} (.finite false mantissa exponent), rest) := by
  rw [toList_text_finite] at hfloat ⊢
  rw [readNumber_eq float? (isNumber_decimal _) hr, not_all_isDigit_decimal, hfloat]
  rfl

/-! ### String literals -/

/-- How a character is written between quotes. -/
def quoted (c : Char) : List Char := if c = '\'' ∨ c = '\\' then ['\\', c] else [c]

theorem readQuoted_append (cs rest : List Char) :
    readQuoted (cs.flatMap quoted ++ '\'' :: rest) = some (cs, rest) := by
  induction cs with
  | nil => rfl
  | cons c cs ih =>
    rw [List.flatMap_cons, List.append_assoc, quoted]
    split
    · rename_i hc
      simp [readQuoted, ih]
    · rename_i hc
      obtain ⟨hquote, hslash⟩ := not_or.mp hc
      simp [readQuoted, hslash, ih]

/-! ### Lists -/

/-- What stands in brackets of some sort ends here, or an item of it. -/
def Ends (rest : List Char) : Prop := ∀ c ∈ rest.head?, c ∈ [')', ']', '\x7d', ',']

theorem ends_cons {c : Char} (h : c ∈ [')', ']', '\x7d', ',']) (rest : List Char) :
    Ends (c :: rest) :=
  forall_mem_head?_cons h rest

section Lists

variable {α β : Type} {item : Reader α} {close : Char} {text : β → String} {out : β → α}

theorem readItems_more {x : α} {cs rest : List Char} (h : item cs = some (x, ',' :: ' ' :: rest))
    (hlength : rest.length < cs.length) :
    readItems item close cs
      = (readItems item close rest).map fun (xs, rest) => (x :: xs, rest) := by
  rw [readItems, h]
  simp [hlength]

theorem readItems_joined (hclose : close ∈ [')', ']']) (rest : List Char) (b : β) (bs : List β)
    (h : ∀ x ∈ b :: bs, ∀ rest, Ends rest → item ((text x).toList ++ rest) = some (out x, rest)) :
    readItems item close ((Text.joined ", " ((b :: bs).map text)).toList ++ close :: rest)
      = some ((b :: bs).map out, rest) := by
  induction bs generalizing b with
  | nil =>
    have hends : Ends (close :: rest) := by
      refine ends_cons ?_ rest
      simp only [List.mem_cons, List.not_mem_nil, or_false] at hclose
      rcases hclose with rfl | rfl <;> decide
    have hcomma : close ≠ ',' := by
      rintro rfl
      exact absurd hclose (by decide)
    rw [List.map_singleton, Text.joined_singleton, readItems, h b List.mem_cons_self _ hends]
    split
    · rename_i heq
      cases heq
      exact absurd rfl hcomma
    · rename_i heq
      cases heq
      simp
    · rename_i hnone
      exact absurd rfl (hnone _ _ _)
  | cons b' bs ih =>
    have hends : ∀ rest, Ends (',' :: rest) := ends_cons (by decide)
    have htext : (Text.joined ", " ((b :: b' :: bs).map text)).toList ++ close :: rest
        = (text b).toList ++ ',' :: ' ' ::
          ((Text.joined ", " ((b' :: bs).map text)).toList ++ close :: rest) := by
      simp
    have hrest := ih b' fun x hx => h x (List.mem_cons_of_mem _ hx)
    rw [htext, readItems_more (h b List.mem_cons_self _ (hends _)) (by simp; omega), hrest]
    rfl

/-- A list is read back if its items are and the closing mark is no item. -/
theorem readList_joined (hclose : close ∈ [')', ']']) (rest : List Char) (bs : List β)
    (h : ∀ x ∈ bs, ∀ rest, Ends rest → item ((text x).toList ++ rest) = some (out x, rest))
    (hnone : ∀ rest, item (close :: rest) = none) :
    readList item close ((Text.joined ", " (bs.map text)).toList ++ close :: rest)
      = some (bs.map out, rest) := by
  cases bs with
  | nil =>
    have hitems : readItems item close (close :: rest) = none := by
      rw [readItems, hnone]
    simp [readList, hitems]
  | cons b bs => simp only [readList, readItems_joined hclose rest b bs h]

end Lists

/-! ### Signs between operands -/

namespace Connective

theorem ne_blank_of_mem_text (i : Connective) : ∀ c ∈ i.text.toList, (c != ' ') = true := by
  refine List.all_eq_true.mp ?_
  rcases i with (op | op | op | _) | _ | _ | op | _ <;> first | (cases op <;> decide) | decide

/-- A sign is a word, or has no character of words. -/
theorem text_unmixed (i : Connective) :
    (∀ c ∈ i.text.toList, isNameChar c = true) ∨ ∀ c ∈ i.text.toList, isNameChar c = false := by
  have hall : i.text.toList.all isNameChar = true ∨
      i.text.toList.all (fun c => !isNameChar c) = true := by
    rcases i with (op | op | op | _) | _ | _ | op | _ <;> first | (cases op <;> decide) | decide
  simpa using hall

theorem head?_text_ne (i : Connective) : i.text.toList.head? ≠ some 'f' := by
  rcases i with (op | op | op | _) | _ | _ | op | _ <;> first | (cases op <;> decide) | decide

/-- The characters that no sign has and with which an operand can begin. -/
theorem not_mem_text (i : Connective) : ∀ c ∈ ['$', '\'', '[', '('], c ∉ i.text.toList := by
  have hall : ['$', '\'', '[', '('].all (fun c => !i.text.toList.contains c) = true := by
    rcases i with (op | op | op | _) | _ | _ | op | _ <;> first | (cases op <;> decide) | decide
  simpa using hall

end Connective

theorem connective?_append (i : Connective) (rest : List Char) :
    connective? (' ' :: (i.text.toList ++ ' ' :: rest)) = some (i, rest) := by
  have hend : ∀ c ∈ (' ' :: rest).head?, (c != ' ') = false :=
    forall_mem_head?_cons (by decide) rest
  rw [connective?, takeWhile_token i.ne_blank_of_mem_text hend,
    dropWhile_token i.ne_blank_of_mem_text hend, String.ofList_toList, Connective.ofText?_text]
  rfl

/-- A word that no sign is written as belongs to no sign. -/
theorem connective?_eq_none {word rest : List Char} (hblank : ∀ c ∈ word, (c != ' ') = true)
    (h : ∀ i : Connective, ∀ more, i.text.toList ≠ word ++ more) :
    connective? (' ' :: (word ++ rest)) = none := by
  rw [connective?, List.takeWhile_append_of_pos hblank]
  split
  · rfl
  · rename_i hdrop
    rw [Option.map_eq_none_iff, Connective.ofText?, List.find?_eq_none]
    intro i _ hi
    have htext := congrArg String.toList (beq_iff_eq.mp hi)
    rw [String.toList_ofList] at htext
    exact h i _ htext

end PhpCheck.SourceReader
