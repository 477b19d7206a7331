/-
  PhpCheck/NameMap.lean
  =====================
  **Maps from names** — finite maps with string keys, kept in the order in which
  the keys were first bound.

  No name is bound twice; the type says so (`nodup`).  A map is seen through
  `get?`: each operation comes with the equation that says what it does to
  every look-up, and nothing else about the list of entries is used.
-/

namespace PhpCheck

structure NameMap (α : Type) where
  entries : List (String × α)
  nodup : (entries.map Prod.fst).Nodup
deriving DecidableEq

namespace NameMap

variable {α β : Type}

def empty : NameMap α := ⟨[], by simp⟩

instance : Inhabited (NameMap α) := ⟨empty⟩

def get? (m : NameMap α) (name : String) : Option α := m.entries.lookup name

def contains (m : NameMap α) (name : String) : Bool := (m.get? name).isSome

def size (m : NameMap α) : Nat := m.entries.length

/-- The bound names, in the order of their first binding. -/
def names (m : NameMap α) : List String := m.entries.map Prod.fst

/-! ### Lists of entries -/

/-- Replaces the entry of a name at its place, or adds one at the end. -/
def put (name : String) (value : α) : List (String × α) → List (String × α)
  | [] => [(name, value)]
  | entry :: rest =>
    if name = entry.1 then (name, value) :: rest else entry :: put name value rest

theorem mem_names_put {name key : String} {value : α} {entries : List (String × α)} :
    key ∈ (put name value entries).map Prod.fst ↔ key = name ∨ key ∈ entries.map Prod.fst := by
  induction entries with
  | nil => simp [put]
  | cons entry rest ih =>
    by_cases h : name = entry.1
    · simp [put, h]
    · simp only [put, if_neg h, List.map_cons, List.mem_cons, ih]
      grind

theorem nodup_put {name : String} {value : α} {entries : List (String × α)}
    (h : (entries.map Prod.fst).Nodup) : ((put name value entries).map Prod.fst).Nodup := by
  induction entries with
  | nil => simp [put]
  | cons entry rest ih =>
    rw [List.map_cons, List.nodup_cons] at h
    by_cases hn : name = entry.1
    · simp only [put, if_pos hn, List.map_cons, List.nodup_cons]
      exact ⟨hn ▸ h.1, h.2⟩
    · simp only [put, if_neg hn, List.map_cons, List.nodup_cons, mem_names_put]
      exact ⟨fun hm => hm.elim (fun he => hn he.symm) h.1, ih h.2⟩

theorem lookup_entry (key : String) (entry : String × α) (entries : List (String × α)) :
    (entry :: entries).lookup key
      = if key = entry.1 then some entry.2 else entries.lookup key := by
  obtain ⟨name, value⟩ := entry
  rw [List.lookup_cons]
  by_cases h : key = name
  · simp [h]
  · have hb : (key == name) = false := by simpa using h
    simp [hb, h]

theorem isSome_lookup {key : String} {entries : List (String × α)} :
    (entries.lookup key).isSome ↔ key ∈ entries.map Prod.fst := by
  induction entries with
  | nil => simp
  | cons entry rest ih =>
    by_cases h : key = entry.1
    · simp [lookup_entry, h]
    · rw [lookup_entry, if_neg h, ih, List.map_cons, List.mem_cons, or_iff_right h]

theorem lookup_eq_none {key : String} {entries : List (String × α)}
    (h : key ∉ entries.map Prod.fst) : entries.lookup key = none := by
  cases hl : entries.lookup key with
  | none => rfl
  | some _ => exact absurd (isSome_lookup.mp (by simp [hl])) h

theorem mem_of_lookup {key : String} {value : α} {entries : List (String × α)}
    (h : entries.lookup key = some value) : (key, value) ∈ entries := by
  obtain ⟨before, after, rfl, _⟩ := List.lookup_eq_some_iff.mp h
  simp

theorem lookup_of_mem {key : String} {value : α} {entries : List (String × α)}
    (hn : (entries.map Prod.fst).Nodup) (h : (key, value) ∈ entries) :
    entries.lookup key = some value := by
  induction entries with
  | nil => cases h
  | cons entry rest ih =>
    rw [List.map_cons, List.nodup_cons] at hn
    rw [lookup_entry]
    rcases List.mem_cons.mp h with rfl | h
    · exact if_pos rfl
    · have hkey : key ∈ rest.map Prod.fst := List.mem_map_of_mem (f := Prod.fst) h
      rw [if_neg, ih hn.2 h]
      rintro rfl
      exact hn.1 hkey

/-- Where no name is bound twice, a search from the end finds the same. -/
theorem lookup_reverse {key : String} {entries : List (String × α)}
    (h : (entries.map Prod.fst).Nodup) : entries.reverse.lookup key = entries.lookup key := by
  induction entries with
  | nil => rfl
  | cons entry rest ih =>
    rw [List.map_cons, List.nodup_cons] at h
    rw [List.reverse_cons, List.lookup_append, ih h.2, lookup_entry, lookup_entry]
    by_cases hk : key = entry.1
    · subst hk
      simp [lookup_eq_none h.1]
    · simp [hk]

/-! ### Operations -/

def insert (m : NameMap α) (name : String) (value : α) : NameMap α :=
  ⟨put name value m.entries, nodup_put m.nodup⟩

/-- Binds a name that has no binding yet; a bound name keeps its binding. -/
def insertNew (m : NameMap α) (name : String) (value : α) : NameMap α :=
  if m.contains name then m else m.insert name value

def filterMap (f : String → α → Option β) (m : NameMap α) : NameMap β :=
  ⟨m.entries.filterMap fun entry => (f entry.1 entry.2).map fun value => (entry.1, value), by
    refine List.Nodup.sublist ?_ m.nodup
    generalize m.entries = entries
    induction entries with
    | nil => simp
    | cons entry rest ih =>
      cases h : f entry.1 entry.2 with
      | none => simpa [h] using ih.cons entry.1
      | some value => simpa [h] using ih⟩

def erase (m : NameMap α) (name : String) : NameMap α :=
  m.filterMap fun key value => if key = name then none else some value

/-- The map of a list of bindings; of two for one name the later holds. -/
def ofList (entries : List (String × α)) : NameMap α :=
  entries.foldl (fun m entry => m.insert entry.1 entry.2) empty

/-- Binds all names of `other`, over whatever they were bound to. -/
def update (m other : NameMap α) : NameMap α :=
  other.entries.foldl (fun m entry => m.insert entry.1 entry.2) m

/-- Binds the names of `other` that have no binding yet. -/
def extend (m other : NameMap α) : NameMap α :=
  other.entries.foldl (fun m entry => m.insertNew entry.1 entry.2) m

/-! ### Look-ups -/

@[simp] theorem get?_empty (name : String) : (empty : NameMap α).get? name = none := rfl

theorem get?_empty_ne {name : String} {value : α} : (empty : NameMap α).get? name ≠ some value := by
  rw [get?_empty]
  exact nofun

theorem contains_eq_isSome (m : NameMap α) (name : String) :
    m.contains name = (m.get? name).isSome := rfl

theorem get?_insert (m : NameMap α) (name key : String) (value : α) :
    (m.insert name value).get? key = if key = name then some value else m.get? key := by
  show (put name value m.entries).lookup key = _
  unfold get?
  generalize m.entries = entries
  induction entries with
  | nil => simp [put, lookup_entry]
  | cons entry rest ih =>
    by_cases hn : name = entry.1
    · subst hn
      by_cases hk : key = entry.1 <;> simp [put, lookup_entry, hk]
    · by_cases hk : key = entry.1
      · have : entry.1 ≠ name := fun h => hn h.symm
        simp [put, lookup_entry, hn, hk, this]
      · simp [put, lookup_entry, hn, hk, ih]

theorem get?_insertNew (m : NameMap α) (name key : String) (value : α) :
    (m.insertNew name value).get? key
      = (m.get? key).or (if key = name then some value else none) := by
  unfold insertNew
  by_cases hk : key = name
  · subst hk
    cases h : m.get? key with
    | none => simp [contains, h, get?_insert]
    | some v => simp [contains, h]
  · split <;> simp [get?_insert, hk]

theorem get?_filterMap (f : String → α → Option β) (m : NameMap α) (key : String) :
    (m.filterMap f).get? key = (m.get? key).bind (f key) := by
  obtain ⟨entries, h⟩ := m
  simp only [filterMap, get?]
  induction entries with
  | nil => simp
  | cons entry rest ih =>
    rw [List.map_cons, List.nodup_cons] at h
    by_cases hk : key = entry.1
    · subst hk
      have hrest : rest.lookup entry.1 = none := lookup_eq_none h.1
      cases hf : f entry.1 entry.2 with
      | none => simp [lookup_entry, hf, ih h.2, hrest]
      | some value => simp [lookup_entry, hf]
    · cases hf : f entry.1 entry.2 <;> simp [lookup_entry, hf, hk, ih h.2]

theorem get?_erase (m : NameMap α) (name key : String) :
    (m.erase name).get? key = if key = name then none else m.get? key := by
  rw [erase, get?_filterMap]
  by_cases hk : key = name
  · cases m.get? key <;> simp [hk]
  · cases m.get? key <;> simp [hk]

private theorem get?_foldl_insert (entries : List (String × α)) (m : NameMap α) (key : String) :
    (entries.foldl (fun m entry => m.insert entry.1 entry.2) m).get? key
      = (entries.reverse.lookup key).or (m.get? key) := by
  induction entries generalizing m with
  | nil => simp
  | cons entry rest ih =>
    rw [List.foldl_cons, ih, get?_insert, List.reverse_cons, List.lookup_append, lookup_entry,
      Option.or_assoc]
    by_cases hk : key = entry.1 <;> simp [hk]

theorem get?_ofList (entries : List (String × α)) (key : String) :
    (ofList entries).get? key = entries.reverse.lookup key := by
  rw [ofList, get?_foldl_insert, get?_empty, Option.or_none]

/-- An updated map has the bindings of `other` and below them its own. -/
theorem get?_update (m other : NameMap α) (key : String) :
    (m.update other).get? key = (other.get? key).or (m.get? key) := by
  rw [update, get?_foldl_insert, lookup_reverse other.nodup]
  rfl

/-- An extended map has its own bindings and below them those of `other`. -/
theorem get?_extend (m other : NameMap α) (key : String) :
    (m.extend other).get? key = (m.get? key).or (other.get? key) := by
  unfold extend
  show _ = (m.get? key).or (other.entries.lookup key)
  generalize other.entries = entries
  induction entries generalizing m with
  | nil => simp
  | cons entry rest ih =>
    rw [List.foldl_cons, ih, get?_insertNew, lookup_entry]
    by_cases hk : key = entry.1
    · cases m.get? key <;> simp [hk]
    · simp [hk]

end NameMap

end PhpCheck
