import SchemaBindings.Proofs.Binding.ReachedTypes

/-! The files of a Java package: a class for each declaration that no type hint replaces, and the
classes for unsigned numbers that these use. Each file imports what its types need, and no class takes
the name of another class that its file means. -/

namespace SchemaBindings.Binding.JavaClasses

open Catalog (Suppressed)

section Levels

variable {c : NamedCatalog}

theorem container?_eq_none_iff {metadata : Metadata} {here : Pointer} {hasItems : Bool}
    {container : Option String}
    (held : hints.container? hasItems metadata here = .ok container) :
    container = none ↔ metadata.hint? "javaJacksonContainer" = none := by
  constructor
  · rintro rfl
    unfold HintKeys.container? at held
    simp only [hints] at held
    split at held
    · cases held
    · exact string?_eq_none.1 ‹_›
    · split at held <;> cases held
  · intro free
    exact container?_of_unhinted held (by simpa [hints] using free)

/-- A list that no hint gives another container. -/
def IsPlainList (use : TypeUse) : Prop :=
  (∃ item, use.kind = .elements item) ∧ use.metadata.hint? "javaJacksonContainer" = none

/-- A map that no hint gives another container. -/
def IsPlainMap (use : TypeUse) : Prop :=
  (∃ item, use.kind = .values item) ∧ use.metadata.hint? "javaJacksonContainer" = none

theorem usesList_iff {use : TypeUse} {type : TypeExpr}
    (read : TypeExpr.ofUse hints c use = .ok type) :
    usesList type = true ↔ ∃ level, use.Reaches "javaJacksonType" level ∧ IsPlainList level := by
  refine anyLevel_iff (fun _ => rfl) (fun use container type held built => ?_) read
  cases built with
  | elements kind =>
    rw [IsPlainList, ← container?_eq_none_iff held, and_iff_right ⟨_, kind⟩]
    cases container <;> simp
  | _ kind =>
    refine iff_of_false Bool.false_ne_true ?_
    rintro ⟨⟨item, list⟩, -⟩
    cases kind.symm.trans list

theorem usesMap_iff {use : TypeUse} {type : TypeExpr}
    (read : TypeExpr.ofUse hints c use = .ok type) :
    usesMap type = true ↔ ∃ level, use.Reaches "javaJacksonType" level ∧ IsPlainMap level := by
  refine anyLevel_iff (fun _ => rfl) (fun use container type held built => ?_) read
  cases built with
  | values kind =>
    rw [IsPlainMap, ← container?_eq_none_iff held, and_iff_right ⟨_, kind⟩]
    cases container <;> simp
  | _ kind =>
    refine iff_of_false Bool.false_ne_true ?_
    rintro ⟨⟨item, map⟩, -⟩
    cases kind.symm.trans map

end Levels

section Imports

theorem mem_importsOf {body : Body Unit} {i : Import} :
    i.path ∈ importsOf body ↔ uses body i = true := by
  have listed : ∀ j, j ∈ Import.all := by
    intro j
    cases j <;> decide
  have distinct : (Import.all.map Import.path).Nodup := by decide
  constructor
  · intro member
    obtain ⟨j, kept, same⟩ := List.mem_map.1 member
    obtain rfl := List.inj_on_of_nodup_map distinct (listed j) (listed i) same
    exact (List.mem_filter.1 kept).2
  · intro used
    exact List.mem_map_of_mem (List.mem_filter.2 ⟨listed i, used⟩)

theorem uses_offsetDateTime (body : Body Unit) :
    uses body .offsetDateTime = body.types.any (·.usesPrimitive .timestamp) := by
  cases body <;> rfl

theorem uses_list (body : Body Unit) : uses body .list = body.types.any usesList := by
  cases body <;> rfl

theorem uses_map (body : Body Unit) : uses body .map = body.types.any usesMap := by
  cases body <;> rfl

variable {c : NamedCatalog} {declaration : Declaration} {d : Draft Unit Unit}

theorem usesPrimitive_types_iff (p : Primitive) (written : WrittenAs rules c declaration d) :
    d.body.types.any (·.usesPrimitive p) = true ↔
      declaration.Reaches "javaJacksonType" fun level => level.kind = .primitive p :=
  any_types_iff (fun _ _ read => usesPrimitive_iff p read) written

/-- What a file imports for its types. -/
structure ImportsFor (declaration : Declaration) (imports : List String) : Prop where
  list : "java.util.List" ∈ imports ↔ declaration.Reaches "javaJacksonType" IsPlainList
  map : "java.util.Map" ∈ imports ↔ declaration.Reaches "javaJacksonType" IsPlainMap
  time : "java.time.OffsetDateTime" ∈ imports ↔
    declaration.Reaches "javaJacksonType" fun level => level.kind = .primitive .timestamp

theorem importsFor_importsOf (written : WrittenAs rules c declaration d) :
    ImportsFor declaration (importsOf d.body) := by
  constructor
  case list =>
    refine (mem_importsOf (i := .list)).trans ?_
    rw [uses_list]
    exact any_types_iff (fun _ _ read => usesList_iff read) written
  case map =>
    refine (mem_importsOf (i := .map)).trans ?_
    rw [uses_map]
    exact any_types_iff (fun _ _ read => usesMap_iff read) written
  case time =>
    refine (mem_importsOf (i := .offsetDateTime)).trans ?_
    rw [uses_offsetDateTime]
    exact usesPrimitive_types_iff .timestamp written

end Imports

section Names

/-- The last part of the path of a class. -/
def simpleName (path : String) : String :=
  String.ofList (path.toList.reverse.takeWhile (· ≠ '.')).reverse

/-- The classes of `java.lang` that are written without their package. -/
def langNames : List String :=
  ["Boolean", "Byte", "Double", "Float", "Integer", "Object", "Override", "Short", "String"]

/-- A primitive is written as a class of `java.lang`, as one that its file imports, or as one of the
classes for unsigned numbers. -/
theorem primitiveText_mem (p : Primitive) :
    primitiveText p ∈ langNames ∨
      p = .timestamp ∧ primitiveText p = simpleName Import.offsetDateTime.path ∨
      ∃ u, p = Unsigned.primitive u ∧ primitiveText p = u.className := by
  cases p with
  | timestamp => exact .inr (.inl ⟨rfl, by decide⟩)
  | uint8 => exact .inr (.inr ⟨.byte, rfl, rfl⟩)
  | uint16 => exact .inr (.inr ⟨.short, rfl, rfl⟩)
  | uint32 => exact .inr (.inr ⟨.integer, rfl, rfl⟩)
  | _ => exact .inl (by decide)

/-- A class is called like none that its file imports, and like none that is written without an
import. -/
def Apart (name : String) (imports : List String) : Prop :=
  name ∉ imports.map simpleName ∧ name ∉ langNames

instance (name : String) (imports : List String) : Decidable (Apart name imports) :=
  inferInstanceAs (Decidable (_ ∧ _))

theorem apart_of_unreserved {name : String} (unreserved : name ∉ naming.reservedTypeNames)
    (body : Body Unit) : Apart name (importsOf body) ∧ ∀ u, name ≠ Unsigned.className u := by
  -- All of these names are reserved, and no class takes a reserved one.
  have imported : ∀ i ∈ Import.all, simpleName i.path ∈ naming.reservedTypeNames := by
    decide +kernel
  have plain : ∀ other ∈ langNames, other ∈ naming.reservedTypeNames := by
    decide +kernel
  refine ⟨⟨fun member => ?_, fun member => unreserved (plain _ member)⟩, ?_⟩
  · obtain ⟨path, listed, rfl⟩ := List.mem_map.1 member
    obtain ⟨i, kept, rfl⟩ := List.mem_map.1 listed
    exact unreserved (imported i (List.mem_filter.1 kept).1)
  · rintro u rfl
    refine unreserved ?_
    cases u <;> decide

/-- The class that holds an unsigned number, and the two inside it. -/
def helperNames (u : Unsigned) : List String := [u.className, "Serializer", "Deserializer"]

theorem apart_helperNames (u : Unsigned) : ∀ name ∈ helperNames u, Apart name helperImports := by
  cases u <;> decide

end Names

section Rendering

variable {document : Json} {schema : Schema} {rootName package : String} {rendered : Rendered}

def helperFile (package : String) (u : Unsigned) : File :=
  file package u.className helperImports (helperLines u)

/-- A package is the files of the drafts, and behind them those for the unsigned numbers. -/
theorem exists_drafts_of_render (read : Schema.ofJson document = .ok schema)
    (renders : Target.render ⟨.java, package⟩ (Catalog.ofSchema schema rootName) = .ok rendered) :
    ∃ emitted drafts,
      rendered.files = drafts.map (draftFile package) ++
        (unsignedIn drafts).map (helperFile package) ∧
      Emitted "javaJacksonType" (Catalog.ofSchema schema rootName) emitted ∧
      List.Forall₂ (WrittenAs rules (namedFor .java schema rootName)) emitted drafts := by
  have files : files package (namedFor .java schema rootName) = .ok rendered.files :=
    files_of_render renders
  obtain ⟨drafts, drafted, same⟩ := (bind_eq_ok ..).1 files
  obtain ⟨emitted, all, each⟩ := exists_emitted_of_drafts
    (Catalog.mirrors_ofSchema (Schema.regular_of_ofJson read) rootName)
    (Catalog.linked_ofSchema schema rootName) drafted
  exact ⟨emitted, drafts, ((pure_eq_ok ..).1 same).symm, all, each⟩

/-- The file of a declaration is that of one class. Its imports are those that the declaration calls
for, and the name of the class is apart from all other names in the file. -/
structure ClassFile (package name : String) (declaration : Declaration) (f : File) : Prop where
  written : ∃ described body,
    f = file package name (importsOf body) (bodyLines name described body) ∧
    ImportsFor declaration (importsOf body) ∧ Apart name (importsOf body)
  helpers : ∀ u, name ≠ Unsigned.className u

/-- A definition that is called like a class of Java's, and unsigned numbers in lists: one in a list
of Java's, one in another container, and one that a text stands for. -/
def unsignedLists : Json :=
  .object [
    ("definitions", .object [("list", .object [("properties", .object [
      ("at", .object [("type", .string "timestamp")]),
      ("small", .object [("elements", .object [("type", .string "uint8")])])])])]),
    ("properties", .object [
      ("others", .object [
        ("elements", .object [("type", .string "uint16")]),
        ("metadata", .object [("javaJacksonContainer", .string "java.util.Set")])]),
      ("raw", .object [
        ("elements", .object [("type", .string "uint32")]),
        ("metadata", .object [("javaJacksonType", .string "int[]")])])])]

end Rendering

end SchemaBindings.Binding.JavaClasses
