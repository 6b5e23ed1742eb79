import SchemaBindings.Proofs.Binding.MapMetadata
import SchemaBindings.Proofs.Schema.Regular

/-! How far a change of metadata reaches. No metadata reaches a name, and a key that a language does
not own reaches nothing that is rendered for it. -/

namespace SchemaBindings

/-- A shape without metadata. No value of an enumeration is described then. -/
def Shape.bare (shape : Shape) : Shape := shape.mapMetadata (fun _ => .empty) .empty

/-- Declarations that differ in metadata and in the descriptions of values, and in nothing else. -/
structure Declaration.Alike (d e : Declaration) : Prop where
  id : d.id = e.id
  path : d.path = e.path
  shape : d.shape.bare = e.shape.bare
  nullable : d.nullable = e.nullable
  owner : d.owner = e.owner
  pointer : d.pointer = e.pointer

theorem Shape.mapMetadata_empty (own : Metadata) (shape : Shape) :
    shape.mapMetadata (fun _ => .empty) own = shape.bare := by
  cases shape <;> rfl

theorem Declaration.alike_of_mapMetadata {d e : Declaration}
    (same : d.mapMetadata (fun _ => .empty) = e.mapMetadata (fun _ => .empty)) : d.Alike e := by
  simp only [Declaration.mapMetadata, Shape.mapMetadata_empty, Declaration.mk.injEq] at same
  obtain ⟨id, path, shape, -, nullable, owner, pointer⟩ := same
  exact ⟨id, path, shape, nullable, owner, pointer⟩

/-- Metadata changes no identifier. The catalogs of two schemas that differ in nothing else declare
the same, and every convention gives the declarations the same names, also those of which a hint
takes the place. -/
theorem Naming.resolve_eq_of_same_bare {schema changed : Schema}
    (same : schema.mapMetadata (fun _ => .empty) = changed.mapMetadata (fun _ => .empty))
    (rootName : String) :
    List.Forall₂ Declaration.Alike (Catalog.ofSchema schema rootName).declarations
        (Catalog.ofSchema changed rootName).declarations ∧
      (Catalog.ofSchema schema rootName).named = (Catalog.ofSchema changed rootName).named ∧
      ∀ convention, resolve convention (Catalog.ofSchema schema rootName) =
        resolve convention (Catalog.ofSchema changed rootName) := by
  have bare : (Catalog.ofSchema schema rootName).mapMetadata (fun _ => .empty) =
      (Catalog.ofSchema changed rootName).mapMetadata (fun _ => .empty) := by
    rw [← Catalog.ofSchema_mapMetadata, same, Catalog.ofSchema_mapMetadata]
  refine ⟨?_, (congrArg Catalog.named bare :), fun convention => ?_⟩
  · have declarations := congrArg Catalog.declarations bare
    simp only [Catalog.declarations_mapMetadata] at declarations
    rw [← List.forall₂_eq_eq_eq, List.forall₂_map_left_iff, List.forall₂_map_right_iff]
      at declarations
    exact declarations.imp fun _ _ => Declaration.alike_of_mapMetadata
  · rw [← resolve_mapMetadata (fun _ => .empty), bare, resolve_mapMetadata]

/-- The light of a signal is one of two colors. -/
def signalSchema (light : Metadata) : Schema :=
  ⟨⟨.properties [("light", ⟨.enum ["green", "red"], false, light⟩)] [] false, false, .empty⟩, []⟩

/-- A light with descriptions and a hint, which takes the place of its declaration in Go. -/
def hintedLight : Metadata :=
  ⟨some "What to do.", [("red", "Stop.")], [("goType", .string "color.RGBA")]⟩

theorem Naming.resolve_signal :
    Binding.replaced "goType" (Catalog.ofSchema (signalSchema .empty) "signal") = [false, false] ∧
      Binding.replaced "goType" (Catalog.ofSchema (signalSchema hintedLight) "signal") =
        [false, true] ∧
      List.Forall₂ Declaration.Alike (Catalog.ofSchema (signalSchema .empty) "signal").declarations
        (Catalog.ofSchema (signalSchema hintedLight) "signal").declarations ∧
      ∀ convention, resolve convention (Catalog.ofSchema (signalSchema .empty) "signal") =
        resolve convention (Catalog.ofSchema (signalSchema hintedLight) "signal") := by
  have same : (signalSchema .empty).mapMetadata (fun _ => .empty) =
      (signalSchema hintedLight).mapMetadata (fun _ => .empty) := by rfl
  obtain ⟨alike, -, names⟩ := resolve_eq_of_same_bare same "signal"
  exact ⟨by decide +kernel, by decide +kernel, alike, names⟩

/-- The metadata with no other extensions than these. -/
def Metadata.only (keys : List String) (m : Metadata) : Metadata :=
  { m with extensions := m.extensions.filter fun entry => keys.contains entry.1 }

theorem Metadata.hint?_only {keys : List String} {key : String} (kept : key ∈ keys) (m : Metadata) :
    (m.only keys).hint? key = m.hint? key :=
  Keyed.lookup_filter (List.contains_iff_mem.2 kept) m.extensions

namespace Binding

theorem keeps_only (owned : List String) : Keeps owned id (Metadata.only owned) where
  described _ := rfl
  enumDescribed _ _ := rfl
  hint m key known := by rw [Metadata.hint?_only known]

/-- A language renders a schema as it renders the schema without the keys of others. -/
theorem Target.render_only {document : Json} {schema : Schema}
    (read : Schema.ofJson document = .ok schema) (t : Target) (rootName : String) :
    t.render (Catalog.ofSchema (schema.mapMetadata (Metadata.only (ownKeys t.language))) rootName) =
      t.render (Catalog.ofSchema schema rootName) := by
  have mirrors := Catalog.mirrors_ofSchema (Schema.regular_of_ofJson read) rootName
  rw [Catalog.ofSchema_mapMetadata]
  exact Target.render_mapMetadata (keeps_only _) fun _ inside => mirrors.describedBy inside

/-- A hint affects no language but the one that owns it. Two schemas that differ in nothing else
than in metadata keys that a language does not own have the same output in it, or the same fault. -/
theorem render_eq_of_same_own {document other : Json} {schema changed : Schema}
    (read : Schema.ofJson document = .ok schema) (readOther : Schema.ofJson other = .ok changed)
    (t : Target) (same : schema.mapMetadata (Metadata.only (ownKeys t.language)) =
      changed.mapMetadata (Metadata.only (ownKeys t.language))) (rootName : String) :
    t.render (Catalog.ofSchema schema rootName) = t.render (Catalog.ofSchema changed rootName) :=
  calc t.render (Catalog.ofSchema schema rootName)
    _ = t.render (Catalog.ofSchema
          (schema.mapMetadata (Metadata.only (ownKeys t.language))) rootName) :=
        (Target.render_only read t rootName).symm
    _ = t.render (Catalog.ofSchema
          (changed.mapMetadata (Metadata.only (ownKeys t.language))) rootName) := by rw [same]
    _ = t.render (Catalog.ofSchema changed rootName) := Target.render_only readOther t rootName

example : [Language.java, .rust, .go, .typescript].map ownKeys =
    [["javaJacksonType", "javaJacksonContainer"],
      ["rustCustomDerive", "rustType", "rustContainer"],
      ["goDiscriminatorType", "goType", "goContainer"], ["typescriptType"]] := rfl

/-- A list of words with a hint for Java, and other hints. -/
def words (others : List (String × Json)) : Json :=
  .object [
    ("elements", .object [("type", .string "string")]),
    ("metadata", .object (("javaJacksonContainer", .string "Deque") :: others))]

def wordsSchema (metadata : Metadata) : Schema :=
  ⟨⟨.elements ⟨.type .string, false, .empty⟩, false, metadata⟩, []⟩

theorem ofJson_words {others : List (String × Json)} {metadata : Metadata}
    (read : Schema.readMetadataFields (Pointer.root.child "metadata")
      (Keyed.ofList (("javaJacksonContainer", .string "Deque") :: others)) = .ok metadata) :
    Schema.ofJson (words others) = .ok (wordsSchema metadata) := by
  have fields : (words others).fields? = some [
      ("elements", .object [("type", .string "string")]),
      ("metadata", .object (("javaJacksonContainer", .string "Deque") :: others))] :=
    congrArg some (Keyed.ofList_eq_self (List.pairwise_pair.2
      (show "elements" < "metadata" by decide)))
  have rootRead : Schema.readNode [] true .root (words others) = .ok (wordsSchema metadata).root :=
    (Schema.readNode_eq_ok ..).2 ⟨_, fields, by rfl,
      (Schema.readMetadata_eq_ok ..).2 (.inr ⟨_, _, by rfl, rfl, read⟩), by rfl,
      (Schema.readForm_eq_ok _).2
        (.elements (by rfl) (by rfl) (Schema.readNode_primitive [] _ .string))⟩
  exact Schema.ofJson_of_readNode fields (by rfl) rootRead

/-- A hint that Go rejects leaves the output of Java as it is. -/
theorem render_words :
    let plain := wordsSchema ⟨none, [], [("javaJacksonContainer", .string "Deque")]⟩
    let hinted := wordsSchema
      ⟨none, [], [("goContainer", .null), ("javaJacksonContainer", .string "Deque")]⟩
    Schema.ofJson (words []) = .ok plain ∧
      Schema.ofJson (words [("goContainer", .null)]) = .ok hinted ∧
      Target.render ⟨.java, "texts"⟩ (Catalog.ofSchema plain "words") =
        Target.render ⟨.java, "texts"⟩ (Catalog.ofSchema hinted "words") ∧
      (Target.render ⟨.go, "texts"⟩ (Catalog.ofSchema plain "words")).isOk = true ∧
      (Target.render ⟨.go, "texts"⟩ (Catalog.ofSchema hinted "words")).isOk = false := by
  intro plain hinted
  have read : Schema.ofJson (words []) = .ok plain := ofJson_words (by rfl)
  have readHinted : Schema.ofJson (words [("goContainer", .null)]) = .ok hinted :=
    ofJson_words (by rfl)
  have same : plain.mapMetadata (Metadata.only (ownKeys .java)) =
      hinted.mapMetadata (Metadata.only (ownKeys .java)) := by rfl
  exact ⟨read, readHinted, render_eq_of_same_own read readHinted ⟨.java, "texts"⟩ same "words",
    by decide +kernel, by decide +kernel⟩

end Binding

end SchemaBindings
