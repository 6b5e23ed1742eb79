import SchemaBindings.Binding.Target
import SchemaBindings.Proofs.Keyed
import SchemaBindings.Proofs.Naming.Distinct
import SchemaBindings.Proofs.Schema.Regular

/-! The types of the root and of the definitions. They are named before all others, so that nothing
inside them can take one of their names or change it. -/

namespace SchemaBindings

open Keyed (keys)

namespace Catalog

theorem map_path_topLevels (schema : Schema) (id next : Nat)
    (entries : List (String × Pointer × Node)) :
    (topLevels schema id next entries).1.map Declaration.path =
      entries.map fun entry => [entry.1] := by
  induction entries generalizing id next with
  | nil => rfl
  | cons entry rest ih =>
    obtain ⟨name, here, node⟩ := entry
    simp only [topLevels, List.map_cons, ih]
    rfl

/-- The root and the definitions come first, each on a path of its name alone. -/
theorem map_path_ofSchema (schema : Schema) (rootName : String) :
    ∃ nested, (ofSchema schema rootName).declarations.map Declaration.path =
      (rootName :: keys schema.definitions).map (fun name => [name]) ++ nested := by
  rw [ofSchema_eq, List.map_append, map_path_topLevels]
  exact ⟨_, congrArg (· ++ _) (by simp [topEntries, keys])⟩

end Catalog

namespace Naming

/-- The types of the root and of the definitions, when nothing else is named. -/
def topTypes (c : Convention) (names : List String) : List String :=
  ((typeScope c).claimAll (names.map fun name => c.typeName [name])).1

theorem length_topTypes (c : Convention) (names : List String) :
    (topTypes c names).length = names.length := by
  rw [topTypes, Scope.length_claimAll, List.length_map]

/-- Whatever else a catalog declares, the types at its top have the names that they have alone. -/
theorem topTypes_of_resolve (c : Convention) (schema : Schema) (rootName : String) :
    topTypes c (rootName :: keys schema.definitions) <+:
      (resolve c (Catalog.ofSchema schema rootName)).map Names.type := by
  obtain ⟨nested, paths⟩ := Catalog.map_path_ofSchema schema rootName
  have bases : (Catalog.ofSchema schema rootName).declarations.map (fun d => c.typeName d.path) =
      (rootName :: keys schema.definitions).map (fun name => c.typeName [name]) ++
        nested.map c.typeName := by
    have named := congrArg (List.map c.typeName) paths
    rwa [List.map_append, List.map_map, List.map_map] at named
  rw [map_type_resolve, typeNames, bases, Scope.claimAll_append]
  exact ⟨_, rfl⟩

end Naming

namespace Binding

open Naming (Names topTypes resolve)

theorem typeName_ofSchema (c : Naming.Convention) (schema : Schema) (rootName : String) {id : Nat}
    (top : id ≤ schema.definitions.length) :
    (NamedCatalog.ofCatalog c (Catalog.ofSchema schema rootName)).typeName id =
      (topTypes c (rootName :: keys schema.definitions))[id]?.getD "" := by
  obtain ⟨rest, all⟩ := Naming.topTypes_of_resolve c schema rootName
  have bound : id < (topTypes c (rootName :: keys schema.definitions)).length := by
    simp only [Naming.length_topTypes, List.length_cons, keys, List.length_map]
    omega
  rw [NamedCatalog.typeName, NamedCatalog.ofCatalog, ← List.getElem?_map, ← all,
    List.getElem?_append_left bound]

/-- The roster lists the types at the top, under the names of the definitions. -/
theorem roster_ofSchema (c : Naming.Convention) (schema : Schema) (rootName : String) :
    Roster.ofNames (.ofCatalog c (Catalog.ofSchema schema rootName)) =
      ⟨(topTypes c (rootName :: keys schema.definitions))[0]?.getD "",
        ((keys schema.definitions).zipIdx 1).map fun (name, id) =>
          (name, (topTypes c (rootName :: keys schema.definitions))[id]?.getD "")⟩ := by
  rw [Roster.ofNames, typeName_ofSchema c schema rootName (Nat.zero_le _)]
  refine congrArg _ (List.map_congr_left fun (name, id) listed => ?_)
  have top := (List.mem_zipIdx listed).2.1
  simp only [keys, List.length_map] at top
  exact congrArg (Prod.mk name) (typeName_ofSchema c schema rootName (by omega))

/-- The names at the top do not depend on what is inside. When two schemas define the same names,
whatever they define by them, their roots and their definitions have the same types, which are the
first to be named. -/
theorem roster_eq_of_same_definitions {document other : Json} {schema changed : Schema}
    (read : Schema.ofJson document = .ok schema) (readOther : Schema.ofJson other = .ok changed)
    (same : ∀ name, name ∈ keys schema.definitions ↔ name ∈ keys changed.definitions)
    (c : Naming.Convention) (rootName : String) :
    (∃ types, types.length = schema.definitions.length + 1 ∧
      types <+: (resolve c (Catalog.ofSchema schema rootName)).map Names.type ∧
      types <+: (resolve c (Catalog.ofSchema changed rootName)).map Names.type) ∧
    Roster.ofNames (.ofCatalog c (Catalog.ofSchema schema rootName)) =
      Roster.ofNames (.ofCatalog c (Catalog.ofSchema changed rootName)) := by
  have defined : keys schema.definitions = keys changed.definitions :=
    Keyed.keys_eq_of_increasing (Schema.regular_of_ofJson read).definitions
      (Schema.regular_of_ofJson readOther).definitions same
  refine ⟨⟨topTypes c (rootName :: keys schema.definitions), ?_,
    Naming.topTypes_of_resolve c schema rootName, ?_⟩, ?_⟩
  · simp [Naming.length_topTypes, keys]
  · rw [defined]
    exact Naming.topTypes_of_resolve c changed rootName
  · rw [roster_ofSchema, roster_ofSchema, defined]

/-- A document that defines a color, and beside it what is called a red color. -/
def paints (color : Json) : Json :=
  .object [("definitions", .object [("color", color), ("color red", .object [])])]

def paintsSchema (color : Node) : Schema :=
  ⟨⟨.empty, false, .empty⟩, [("color", color), ("color red", ⟨.empty, false, .empty⟩)]⟩

theorem ofJson_paints {color : Json} {node : Node}
    (read : ∀ here, Schema.readNode ["color", "color red"] false here color = .ok node)
    (noRef : ∀ target, node.form ≠ .ref target) :
    Schema.ofJson (paints color) = .ok (paintsSchema node) := by
  have redRead (here : Pointer) : Schema.readNode ["color", "color red"] false here (.object []) =
      .ok ⟨.empty, false, .empty⟩ :=
    (Schema.readNode_eq_ok ..).2 ⟨_, rfl, by rfl, by rfl, by rfl,
      (Schema.readForm_eq_ok _).2 (.empty (by rfl))⟩
  have rootRead : Schema.readNode ["color", "color red"] true .root (paints color) =
      .ok (paintsSchema node).root :=
    (Schema.readNode_eq_ok ..).2 ⟨_, rfl, by rfl, by rfl, by rfl,
      (Schema.readForm_eq_ok _).2 (.empty (by rfl))⟩
  have defined : (Json.object [("color", color), ("color red", .object [])]).fields? =
      some [("color", color), ("color red", .object [])] :=
    congrArg some (Keyed.ofList_eq_self (List.pairwise_pair.2
      (show "color" < "color red" by decide)))
  have chains : Schema.checkRefChains (paintsSchema node).definitions = .ok () := by
    refine Schema.checkRefChains_eq_ok.2 fun name cycle => ?_
    obtain ⟨target, ⟨definition, found, form⟩, -⟩ := Relation.TransGen.head'_iff.1 cycle
    rcases List.mem_pair.1 (Keyed.mem_of_lookup found) with same | same <;> cases same
    · exact noRef target form
    · cases form
  exact (Schema.ofJson_eq_ok ..).2 ⟨_, _, rfl, .inr ⟨_, by rfl, defined⟩, rootRead,
    (Schema.readEntries_eq_ok ..).2 (.cons ⟨rfl, read _, rfl⟩ (.cons ⟨rfl, redRead _, rfl⟩ .nil)),
    chains⟩

/-- The constant of a color that is red wants the name of the type of a red color in Go. The type
keeps it. -/
theorem roster_paints :
    let plain := paintsSchema ⟨.type .string, false, .empty⟩
    let listed := paintsSchema ⟨.enum ["red"], false, .empty⟩
    Schema.ofJson (paints (.object [("type", .string "string")])) = .ok plain ∧
      Schema.ofJson (paints (.object [("enum", .array [.string "red"])])) = .ok listed ∧
      resolve GoPackage.naming (Catalog.ofSchema listed "paints") =
        [⟨"Paints", [], [], none⟩, ⟨"Color", [], ["ColorRed0"], none⟩,
          ⟨"ColorRed", [], [], none⟩] ∧
      Roster.ofNames (.ofCatalog GoPackage.naming (Catalog.ofSchema plain "paints")) =
        Roster.ofNames (.ofCatalog GoPackage.naming (Catalog.ofSchema listed "paints")) := by
  intro plain listed
  have read : Schema.ofJson (paints (.object [("type", .string "string")])) = .ok plain :=
    ofJson_paints (fun here => Schema.readNode_primitive _ here .string) nofun
  have readListed : Schema.ofJson (paints (.object [("enum", .array [.string "red"])])) =
      .ok listed :=
    ofJson_paints (fun _ => (Schema.readNode_eq_ok ..).2 ⟨_, rfl, by rfl, by rfl, by rfl,
      (Schema.readForm_eq_ok _).2 (.enum (by decide) (by rfl) (by decide) (by decide))⟩) nofun
  have same : ∀ name, name ∈ keys plain.definitions ↔ name ∈ keys listed.definitions :=
    fun _ => Iff.rfl
  exact ⟨read, readListed, by decide +kernel,
    (roster_eq_of_same_definitions read readListed same GoPackage.naming "paints").2⟩

end Binding

end SchemaBindings
