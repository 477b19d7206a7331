/-
  PhpCheck/Proofs/Program/ReadBack.lean
  =====================================
  **Declarations are read back** — what is written of a declaration says all that
  the declaration says.

  An object is read field by field, and a field that stands in it once is read as
  what was written there, wherever it stands.  So a declaration comes back if its
  parts do: a type if its text is the text of that type, and a constant if it has
  the range of constants, from the form of the value alone.
-/
import PhpCheck.Program.Document

namespace PhpCheck

/-! ### Fields and lists -/

namespace Json

variable {α : Type} {members : List (String × Json)} {key other : String} {value : Json}

theorem field_cons_of_ne (h : other ≠ key) (missing : Option α) (value? : Json → Option α) :
    field ((other, value) :: members) key missing value? = field members key missing value? := by
  simp [field, h]

/-- A field that stands once is read where it stands. -/
theorem field_cons_self (h : key ∉ members.map Prod.fst) (missing : Option α)
    (value? : Json → Option α) :
    field ((key, value) :: members) key missing value? = value? value := by
  have hrest : members.filter (fun member => member.1 == key) = [] := by
    refine List.filter_eq_nil_iff.mpr fun member hmember hkey => ?_
    rw [beq_iff_eq] at hkey
    exact h (hkey ▸ List.mem_map_of_mem hmember)
  simp [field, hrest]

end Json

theorem mapM_map_eq_some {α β : Type} {write : α → β} {read? : β → Option α} {as : List α}
    (h : ∀ a ∈ as, read? (write a) = some a) : (as.map write).mapM read? = some as := by
  induction as with
  | nil => rfl
  | cons a rest ih =>
    rw [List.map_cons, List.mapM_cons, h a List.mem_cons_self,
      ih fun b hb => h b (List.mem_cons_of_mem a hb)]
    rfl

theorem Json.list?_map {α : Type} {write : α → Json} {item? : Json → Option α} {as : List α}
    (h : ∀ a ∈ as, item? (write a) = some a) : Json.list? item? (.array (as.map write)) = some as :=
  mapM_map_eq_some h

theorem word?_text {α : Type} {ofText? : String → Option α} {text : String} :
    word? ofText? (.string text) = ofText? text := rfl

/-! ### Names with values -/

namespace NameMap

variable {α : Type}

theorem put_of_notMem {name : String} {value : α} {entries : List (String × α)}
    (h : name ∉ entries.map Prod.fst) : put name value entries = entries ++ [(name, value)] := by
  induction entries with
  | nil => rfl
  | cons entry rest ih =>
    rw [List.map_cons, List.mem_cons, not_or] at h
    rw [put, if_neg h.1, ih h.2, List.cons_append]

/-- New names are bound behind those that are bound already, in their order. -/
theorem entries_foldl_insert {entries : List (String × α)} {m : NameMap α}
    (h : ((m.entries ++ entries).map Prod.fst).Nodup) :
    (entries.foldl (fun m entry => m.insert entry.1 entry.2) m).entries = m.entries ++ entries := by
  induction entries generalizing m with
  | nil => simp
  | cons entry rest ih =>
    have hnew : entry.1 ∉ m.entries.map Prod.fst := by
      rw [List.map_append, List.map_cons, List.nodup_append] at h
      intro hmem
      exact h.2.2 _ hmem _ List.mem_cons_self rfl
    have hentries : (m.insert entry.1 entry.2).entries = m.entries ++ [entry] := put_of_notMem hnew
    rw [List.foldl_cons, ih, hentries, List.append_assoc, List.singleton_append]
    rwa [hentries, List.append_assoc, List.singleton_append]

theorem ext {m m' : NameMap α} (h : m.entries = m'.entries) : m = m' := by
  cases m
  cases h
  rfl

/-- The entries of a map, bound one after the other, make the map. -/
theorem ofList_entries (m : NameMap α) : ofList m.entries = m := by
  apply ext
  exact entries_foldl_insert m.nodup

end NameMap

theorem nameMap?_entries {α : Type} {write : α → Json} {value? : Json → Option α} {m : NameMap α}
    (h : ∀ entry ∈ m.entries, value? (write entry.2) = some entry.2) :
    nameMap? value? (.object (m.entries.map fun entry => (entry.1, write entry.2))) = some m := by
  have hentries : (m.entries.map fun entry => (entry.1, write entry.2)).mapM
      (fun member => (value? member.2).map fun value => (member.1, value)) = some m.entries :=
    mapM_map_eq_some fun entry hentry => by rw [h entry hentry]; rfl
  have hmap : nameMap? value? (.object (m.entries.map fun entry => (entry.1, write entry.2)))
      = (some m.entries).bind fun entries => some (NameMap.ofList entries) :=
    congrArg (Option.bind · fun entries => some (NameMap.ofList entries)) hentries
  rw [hmap, Option.bind_some, NameMap.ofList_entries]

/-! ### Types and constants -/

/-- The text of the type is read as the type. -/
def PhpType.Readable (t : PhpType) : Prop := PhpType.ofText? t.text = some t

theorem PhpType.Readable.typeText? {t : PhpType} (h : t.Readable) :
    PhpCheck.typeText? (.string t.text) = some t := h

/-- The constant is one of those that documents have: an integer has 64 bits, a float is finite,
    and the items of an array can be read. -/
def Constant.InRange : Constant → Prop
  | .int value => -(Json.signedBound : Int) ≤ value ∧ value < Json.signedBound
  | .float (.finite _ _ _) => True
  | .float _ => False
  | .array items => Json.itemsReadable items = true
  | .null | .bool _ | .string _ => True

/-- A constant comes back as what it was: no other sort of constant is written like it. -/
theorem Constant.ofJson?_toJson {value : Constant} (h : value.InRange) :
    Constant.ofJson? value.toJson = some value := by
  cases value with
  | int value => exact if_pos h
  | float value =>
    cases value with
    | finite => rfl
    | notANumber | infinite => exact h.elim
  | array items => exact if_pos h
  | null | bool _ | string _ => rfl

/-! ### Members -/

def ParamDecl.Readable (p : ParamDecl) : Prop := p.type.Readable

structure MethodDecl.Readable (m : MethodDecl) : Prop where
  params : ∀ p ∈ m.params, p.Readable
  result : m.result.Readable

def PropertyDecl.Readable (p : PropertyDecl) : Prop := p.type.Readable

structure ClassDecl.Readable (c : ClassDecl) : Prop where
  methods : ∀ m ∈ c.methods, m.Readable
  properties : ∀ p ∈ c.properties, p.Readable
  constants : ∀ entry ∈ c.constants.entries, entry.2.InRange

structure FunctionDecl.Readable (f : FunctionDecl) : Prop where
  params : ∀ p ∈ f.params, p.Readable
  result : f.result.Readable

theorem ParamDecl.ofJson?_toJson {p : ParamDecl} (h : p.Readable) :
    ParamDecl.ofJson? p.toJson = some p := by
  simp [ofJson?, toJson, Json.members?, Json.required, Json.optional, Json.field_cons_self,
    Json.field_cons_of_ne, Json.string?, Json.bool?, PhpType.Readable.typeText? h]

theorem MethodDecl.ofJson?_toJson {m : MethodDecl} (h : m.Readable) :
    MethodDecl.ofJson? m.toJson = some m := by
  have hparams : Json.list? ParamDecl.ofJson? (.array (m.params.map ParamDecl.toJson))
      = some m.params :=
    Json.list?_map fun p hp => ParamDecl.ofJson?_toJson (h.params p hp)
  simp [ofJson?, toJson, Json.members?, Json.required, Json.optional, Json.field_cons_self,
    Json.field_cons_of_ne, Json.string?, Json.bool?, word?_text, Visibility.ofText?_text,
    h.result.typeText?, hparams]

theorem PropertyDecl.ofJson?_toJson {p : PropertyDecl} (h : p.Readable) :
    PropertyDecl.ofJson? p.toJson = some p := by
  simp [ofJson?, toJson, Json.members?, Json.required, Json.optional, Json.field_cons_self,
    Json.field_cons_of_ne, Json.string?, Json.bool?, word?_text, Visibility.ofText?_text,
    PhpType.Readable.typeText? h]

theorem FunctionDecl.ofJson?_toJson {f : FunctionDecl} (h : f.Readable) :
    FunctionDecl.ofJson? f.toJson = some f := by
  have hparams : Json.list? ParamDecl.ofJson? (.array (f.params.map ParamDecl.toJson))
      = some f.params :=
    Json.list?_map fun p hp => ParamDecl.ofJson?_toJson (h.params p hp)
  simp [ofJson?, toJson, Json.members?, Json.required, Json.optional, Json.field_cons_self,
    Json.field_cons_of_ne, Json.string?, Json.bool?, h.result.typeText?, hparams]

/-! ### Classes -/

theorem nullable?_parent (parent : Option String) :
    nullable? ((parent.map Json.string).getD .null) = some parent := by
  cases parent <;> rfl

theorem ClassDecl.ofJson?_toJson {constant? : Json → Option Constant} {c : ClassDecl}
    (h : c.Readable)
    (hconstants : ∀ entry ∈ c.constants.entries, constant? entry.2.toJson = some entry.2) :
    ClassDecl.ofJson? constant? c.toJson = some c := by
  have hnames : ∀ names : List String,
      Json.list? Json.string? (.array (names.map Json.string)) = some names :=
    fun names => Json.list?_map fun _ _ => rfl
  have hmethods : Json.list? MethodDecl.ofJson? (.array (c.methods.map MethodDecl.toJson))
      = some c.methods :=
    Json.list?_map fun m hm => MethodDecl.ofJson?_toJson (h.methods m hm)
  have hproperties : Json.list? PropertyDecl.ofJson?
      (.array (c.properties.map PropertyDecl.toJson)) = some c.properties :=
    Json.list?_map fun p hp => PropertyDecl.ofJson?_toJson (h.properties p hp)
  have hconstants := nameMap?_entries hconstants
  simp [ofJson?, toJson, members, Json.members?, Json.required, Json.optional,
    Json.field_cons_self, Json.field_cons_of_ne, Json.string?, Json.bool?, word?_text,
    ClassKind.ofText?_text, nullable?_parent, hnames, hmethods, hproperties, hconstants]

end PhpCheck
