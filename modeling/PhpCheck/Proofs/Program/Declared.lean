/-
  PhpCheck/Proofs/Program/Declared.lean
  =====================================
  **Programs by document** — a document describes the program that the same
  declarations make one by one.

  Of two declarations with one name the later one counts, where the names of
  functions are compared without regard to case, and a load fault covers a class
  of its name (`Program.answers_ofDeclarations`).  A document keeps the order of
  the declarations, and each comes back as it was written, so the program is the
  same in all that can be asked of it (`Program.ofText?_of_document`).
-/
import Mathlib.Data.List.Dedup
import PhpCheck.Proofs.Program.ReadBack

namespace PhpCheck

/-! ### The last of a name -/

namespace NameMap

variable {α β : Type}

/-- Of the items with one name the last one is found. -/
theorem get?_ofList_map (name : β → String) (value : β → α) (items : List β) (key : String) :
    (ofList (items.map fun item => (name item, value item))).get? key
      = (items.reverse.find? fun item => name item == key).map value := by
  rw [get?_ofList, ← List.map_reverse]
  generalize items.reverse = items
  induction items with
  | nil => rfl
  | cons item rest ih =>
    rw [List.map_cons, lookup_entry, List.find?_cons, ih]
    by_cases hk : key = name item
    · simp [hk]
    · have hne : (name item == key) = false := beq_false_of_ne (Ne.symm hk)
      simp [hk, hne]

theorem contains_ofList_map (name : β → String) (value : β → α) (items : List β) (key : String) :
    (ofList (items.map fun item => (name item, value item))).contains key
      = items.any fun item => name item == key := by
  rw [contains_eq_isSome, get?_ofList_map, Option.isSome_map, Bool.eq_iff_iff, List.find?_isSome,
    List.any_eq_true]
  simp

/-- A map has as many entries as there are names that it binds. -/
theorem size_eq_length_dedup {m : NameMap α} {names : List String}
    (h : ∀ key, m.contains key = true ↔ key ∈ names) : m.size = names.dedup.length := by
  have hperm : (m.entries.map Prod.fst).Perm names.dedup := by
    refine (List.perm_ext_iff_of_nodup m.nodup names.nodup_dedup).mpr fun key => ?_
    rw [List.mem_dedup, ← h, contains, get?, isSome_lookup]
  rw [size, ← hperm.length_eq, List.length_map]

end NameMap

/-! ### One by one -/

namespace Program

/-- The program that declarations and load faults make one by one. -/
def ofDeclarations (classes : List ClassDecl) (functions : List FunctionDecl)
    (faults : List (String × String)) : Program :=
  faults.foldl (fun p fault => p.addFault fault.1 fault.2)
    (functions.foldl addFunction (classes.foldl addClass {}))

theorem ext {p q : Program} (hclasses : p.classes = q.classes)
    (hfunctions : p.functions = q.functions) (hfaults : p.faults = q.faults) : p = q := by
  cases p
  cases q
  cases hclasses
  cases hfunctions
  cases hfaults
  rfl

theorem foldl_addClass (classes : List ClassDecl) (p : Program) :
    (classes.foldl addClass p).classes = classes.foldl (fun m c => m.insert c.name c) p.classes ∧
      (classes.foldl addClass p).functions = p.functions ∧
      (classes.foldl addClass p).faults = p.faults := by
  induction classes generalizing p with
  | nil => exact ⟨rfl, rfl, rfl⟩
  | cons c rest ih => exact ih (p.addClass c)

theorem foldl_addFunction (functions : List FunctionDecl) (p : Program) :
    (functions.foldl addFunction p).classes = p.classes ∧
      (functions.foldl addFunction p).functions
        = functions.foldl (fun m f => m.insert (Text.lowercase f.name) f) p.functions ∧
      (functions.foldl addFunction p).faults = p.faults := by
  induction functions generalizing p with
  | nil => exact ⟨rfl, rfl, rfl⟩
  | cons f rest ih => exact ih (p.addFunction f)

theorem foldl_addFault (faults : List (String × String)) (p : Program) :
    (faults.foldl (fun p fault => p.addFault fault.1 fault.2) p).classes = p.classes ∧
      (faults.foldl (fun p fault => p.addFault fault.1 fault.2) p).functions = p.functions ∧
      (faults.foldl (fun p fault => p.addFault fault.1 fault.2) p).faults
        = faults.foldl (fun m fault => m.insert fault.1 fault.2) p.faults := by
  induction faults generalizing p with
  | nil => exact ⟨rfl, rfl, rfl⟩
  | cons fault rest ih => exact ih (p.addFault fault.1 fault.2)

section Tables

variable (classes : List ClassDecl) (functions : List FunctionDecl)
  (faults : List (String × String))

theorem classes_ofDeclarations :
    (ofDeclarations classes functions faults).classes
      = .ofList (classes.map fun c => (c.name, c)) := by
  rw [ofDeclarations, (foldl_addFault _ _).1, (foldl_addFunction _ _).1, (foldl_addClass _ _).1,
    NameMap.ofList, List.foldl_map]

theorem functions_ofDeclarations :
    (ofDeclarations classes functions faults).functions
      = .ofList (functions.map fun f => (Text.lowercase f.name, f)) := by
  rw [ofDeclarations, (foldl_addFault _ _).2.1, (foldl_addFunction _ _).2.1,
    (foldl_addClass _ _).2.1, NameMap.ofList, List.foldl_map]

theorem faults_ofDeclarations :
    (ofDeclarations classes functions faults).faults = .ofList faults := by
  rw [ofDeclarations, (foldl_addFault _ _).2.2, (foldl_addFunction _ _).2.2,
    (foldl_addClass _ _).2.2, NameMap.ofList]

/-- Load faults that are there from the start are the same as those that are added at the end. -/
theorem eq_ofDeclarations :
    functions.foldl addFunction (classes.foldl addClass { faults := .ofList faults })
      = ofDeclarations classes functions faults := by
  refine ext ?_ ?_ ?_
  · rw [ofDeclarations, (foldl_addFault _ _).1, (foldl_addFunction _ _).1, (foldl_addClass _ _).1,
      (foldl_addFunction _ _).1, (foldl_addClass _ _).1]
  · rw [ofDeclarations, (foldl_addFault _ _).2.1, (foldl_addFunction _ _).2.1,
      (foldl_addClass _ _).2.1, (foldl_addFunction _ _).2.1, (foldl_addClass _ _).2.1]
  · rw [faults_ofDeclarations, (foldl_addFunction _ _).2.2, (foldl_addClass _ _).2.2]

end Tables

/-! ### What can be asked -/

/-- What a program answers that is made of declarations and load faults: for each name the last
    declaration, unless the class has a load fault, and the number of names of classes. -/
structure Answers (p : Program) (classes : List ClassDecl) (functions : List FunctionDecl)
    (faults : List (String × String)) : Prop where
  class? : ∀ name, p.class? name = classes.reverse.find? (·.name == name)
  classExists : ∀ name, p.classExists name =
    match faults.reverse.find? (·.1 == name) with
    | some fault => .error fault.2
    | none => .ok (classes.any (·.name == name))
  classCount : p.classCount = (classes.map (·.name)).dedup.length
  function? : ∀ name, p.function? name = functions.reverse.find? fun f => Text.sameName f.name name
  functionExists : ∀ name, p.functionExists name = functions.any fun f => Text.sameName f.name name

theorem answers_ofDeclarations (classes : List ClassDecl) (functions : List FunctionDecl)
    (faults : List (String × String)) :
    (ofDeclarations classes functions faults).Answers classes functions faults where
  class? name := by
    rw [Program.class?, classes_ofDeclarations, NameMap.get?_ofList_map, Option.map_id']
  classExists name := by
    have hfaults := NameMap.get?_ofList_map Prod.fst Prod.snd faults name
    rw [show (faults.map fun fault => (fault.1, fault.2)) = faults from List.map_id' faults]
      at hfaults
    rw [Program.classExists, faults_ofDeclarations, hfaults, classes_ofDeclarations,
      NameMap.contains_ofList_map]
    cases faults.reverse.find? fun fault => fault.1 == name <;> rfl
  classCount := by
    refine NameMap.size_eq_length_dedup fun key => ?_
    rw [classes_ofDeclarations, NameMap.contains_ofList_map]
    simp
  function? name := by
    rw [Program.function?, functions_ofDeclarations, NameMap.get?_ofList_map, Option.map_id']
    rfl
  functionExists name := by
    rw [Program.functionExists, Program.function?, ← NameMap.contains_eq_isSome,
      functions_ofDeclarations, NameMap.contains_ofList_map]
    rfl

/-! ### By document -/

/-- A document describes the program of its declarations, whatever form its constants have, if
    each class comes back in it. -/
theorem ofJson?_document {constant? : Json → Option Constant} {classes : List ClassDecl}
    {functions : List FunctionDecl} (faults : List (String × String))
    (hclasses : ∀ c ∈ classes, ClassDecl.ofJson? constant? c.toJson = some c)
    (hfunctions : ∀ f ∈ functions, f.Readable) :
    ofJson? constant? (document classes functions (.ofList faults))
      = some (ofDeclarations classes functions faults) := by
  have hclasses := Json.list?_map hclasses
  have hfunctions : Json.list? FunctionDecl.ofJson? (.array (functions.map FunctionDecl.toJson))
      = some functions :=
    Json.list?_map fun f hf => FunctionDecl.ofJson?_toJson (hfunctions f hf)
  have hfaults : nameMap? Json.string? (.object ((NameMap.ofList faults).entries.map
      fun entry => (entry.1, Json.string entry.2))) = some (.ofList faults) :=
    nameMap?_entries fun _ _ => rfl
  rw [← eq_ofDeclarations]
  simp [ofJson?, document, Json.members?, Json.optional, Json.field_cons_self,
    Json.field_cons_of_ne, hclasses, hfunctions, hfaults]

/-- **A document says what its declarations say.**  It is read as the program that they make one by
    one, and so is each text that parses as the document, as far as no constant is nested too deep
    for a text.  Of two declarations of one name the program has the later, and a load fault hides
    a class. -/
theorem ofText?_of_document {classes : List ClassDecl} {functions : List FunctionDecl}
    (hclasses : ∀ c ∈ classes, c.Readable) (hfunctions : ∀ f ∈ functions, f.Readable)
    (faults : List (String × String)) :
    ofJson? Constant.ofJson? (document classes functions (.ofList faults))
        = some (ofDeclarations classes functions faults) ∧
      (∀ text : String, Json.ofText? text = some (document classes functions (.ofList faults)) →
        (∀ c ∈ classes, ∀ entry ∈ c.constants.entries,
          constantDepth + entry.2.toJson.depth ≤ documentDepth) →
        ofText? text = some (ofDeclarations classes functions faults)) ∧
      (ofDeclarations classes functions faults).Answers classes functions faults := by
  refine ⟨ofJson?_document faults (fun c hc => ?_) hfunctions, fun text htext hdepth => ?_,
    answers_ofDeclarations classes functions faults⟩
  · exact ClassDecl.ofJson?_toJson (hclasses c hc) fun entry hentry =>
      Constant.ofJson?_toJson ((hclasses c hc).constants entry hentry)
  · rw [ofText?, htext, Option.bind_some]
    refine ofJson?_document faults (fun c hc => ?_) hfunctions
    refine ClassDecl.ofJson?_toJson (hclasses c hc) fun entry hentry => ?_
    rw [nestedConstant?, if_pos (hdepth c hc entry hentry)]
    exact Constant.ofJson?_toJson ((hclasses c hc).constants entry hentry)

end Program

/-! ### A catalogue -/

namespace Catalogue

open Program

/-- A class with a constant of each sort. -/
def shelf : ClassDecl where
  name := "Shelf"
  properties := [{ name := "books", visibility := .classOnly, type := .of .array false }]
  constants := .ofList [("NONE", .null), ("OPEN", .bool true),
    ("LEAST", .int (-9223372036854775808)),
    ("WIDTH", .float (.finite false 0x10000000000000 (-52))), ("LABEL", .string "A"),
    ("MARKS", .array [.null, .array [.int 1], .object [("b", .null)]])]

/-- Another class of the same name. -/
def counter : ClassDecl where
  name := "Shelf"
  kind := .interface
  methods := [{ name := "count", isAbstract := true, result := .of .integer true }]

def tray : ClassDecl where
  name := "T"
  constants := .ofList [("N", .int 4)]

def upperSort : FunctionDecl := { name := "SORT" }

def sort : FunctionDecl where
  name := "sort"
  params := [{ name := "shelf", type := .object "Shelf", byRef := true }]
  result := .of .boolean false

theorem shelf_readable : shelf.Readable where
  methods := by simp [shelf]
  properties := by
    simp only [shelf, List.forall_mem_singleton, PropertyDecl.Readable, PhpType.Readable]
    rfl
  constants := by
    simp [shelf, NameMap.ofList, NameMap.insert, NameMap.put, NameMap.empty, Constant.InRange,
      Json.signedBound, Json.itemsReadable, Json.readable, Json.membersReadable]

theorem counter_readable : counter.Readable where
  methods := by
    simp only [counter, List.forall_mem_singleton]
    exact ⟨by simp, rfl⟩
  properties := by simp [counter]
  constants := by simp [counter, NameMap.empty]

theorem tray_readable : tray.Readable where
  methods := by simp [tray]
  properties := by simp [tray]
  constants := by
    simp [tray, NameMap.ofList, NameMap.insert, NameMap.put, NameMap.empty, Constant.InRange,
      Json.signedBound]

theorem upperSort_readable : upperSort.Readable where
  params := by simp [upperSort]
  result := rfl

theorem sort_readable : sort.Readable where
  params := by
    simp only [sort, List.forall_mem_singleton, ParamDecl.Readable, PhpType.Readable]
    rfl
  result := rfl

set_option maxRecDepth 2000 in
theorem tray_read_back :
    Json.ofText? (document [tray] [] (.ofList [])).text
      = some (document [tray] [] (.ofList [])) := by
  unfold Json.ofText?
  -- The characters of the parts, since a text as a whole is put together byte by byte.
  simp only [document, ClassDecl.toJson, ClassDecl.members, tray, NameMap.ofList, NameMap.insert,
    NameMap.put, NameMap.empty, Constant.toJson, List.foldl, List.map, Json.text,
    Json.memberTexts, Json.itemTexts, Text.joined, Json.quoted, String.toList_append,
    String.toList_ofList]
  rfl

def faults : List (String × String) := [("Shelf", "lost"), ("Shelf", "sold")]

def program : Program := ofDeclarations [shelf, counter] [upperSort, sort] faults

/-- The program by document has the later class, hidden by the later fault, and the later
    function. -/
theorem document_describes_program :
    ofJson? Constant.ofJson? (document [shelf, counter] [upperSort, sort] (.ofList faults))
        = some program ∧
      program.class? "Shelf" = some counter ∧ program.classExists "Shelf" = .error "sold" ∧
      program.classCount = 1 ∧ program.function? "Sort" = some sort ∧
      ofText? (document [tray] [] (.ofList [])).text = some (ofDeclarations [tray] [] []) := by
  have hclasses : ∀ c ∈ [shelf, counter], c.Readable := by
    simp [shelf_readable, counter_readable]
  have hfunctions : ∀ f ∈ [upperSort, sort], f.Readable := by
    simp [upperSort_readable, sort_readable]
  have htray : ∀ c ∈ [tray], c.Readable := by simp [tray_readable]
  obtain ⟨hdocument, -, hanswers⟩ := ofText?_of_document hclasses hfunctions faults
  obtain ⟨-, htext, -⟩ := ofText?_of_document htray (List.forall_mem_nil _) []
  exact ⟨hdocument, (hanswers.class? "Shelf").trans rfl, (hanswers.classExists "Shelf").trans rfl,
    hanswers.classCount.trans (by decide), (hanswers.function? "Sort").trans rfl,
    htext _ tray_read_back (by decide)⟩

end Catalogue

end PhpCheck
