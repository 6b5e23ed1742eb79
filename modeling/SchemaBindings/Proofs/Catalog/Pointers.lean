import SchemaBindings.Proofs.Catalog.Growth
import SchemaBindings.Proofs.Catalog.Uses
import SchemaBindings.Proofs.Schema.FaultPlaces

/-! The pointers of a catalog lead back to the document that its schema was read from: each to the
object whose metadata the catalog keeps beside it. -/

namespace SchemaBindings

open Keyed (keys)
open Pointer (LeadsTo)
open Schema (StandBelow readNode readNodes readMetadata FormRead)

/-- The pointer leads to an object of the document, and its metadata is this one. -/
def Bears (document : Json) (here : Pointer) (metadata : Metadata) : Prop :=
  ∃ value fields, LeadsTo document here value ∧ value.fields? = some fields ∧
    readMetadata here fields = .ok metadata

/-- A hint stands in the document where the metadata of its node has it. -/
theorem Bears.hint {document : Json} {here : Pointer} {metadata : Metadata}
    (bears : Bears document here metadata) {key : String} {hint : Json}
    (found : metadata.hint? key = some hint) :
    LeadsTo document (here.descend ["metadata", key]) hint := by
  obtain ⟨value, fields, leads, object, read⟩ := bears
  rcases (Schema.readMetadata_eq_ok ..).1 read with ⟨-, rfl⟩ | ⟨held, entries, inside, inner, read⟩
  · simp [Metadata.hint?, Metadata.empty] at found
  · have below := Schema.standBelow_of_fields (leads.field object inside) inner
    have member : (key, hint) ∈ metadata.extensions := Keyed.mem_of_lookup found
    rw [Schema.extensions_of_readMetadataFields read] at member
    exact below (key, hint) (List.mem_filter.1 member).1

namespace Catalog

/-- The node is what the object of the document at the pointer was read as. -/
def ReadAt (document : Json) (names : List String) (here : Pointer) (node : Node) : Prop :=
  ∃ isRoot value, LeadsTo document here value ∧ readNode names isRoot here value = .ok node

section Nodes

variable {document : Json} {names : List String} {here : Pointer} {node : Node}

theorem ReadAt.bears (readAt : ReadAt document names here node) :
    Bears document here node.metadata := by
  obtain ⟨isRoot, value, leads, read⟩ := readAt
  obtain ⟨fields, object, -, metadataRead, -, -⟩ := (Schema.readNode_eq_ok ..).1 read
  exact ⟨value, fields, leads, object, metadataRead⟩

theorem ReadAt.form (readAt : ReadAt document names here node) :
    ∃ fields, StandBelow document here fields ∧ FormRead names here fields node.form := by
  obtain ⟨isRoot, value, leads, read⟩ := readAt
  obtain ⟨fields, object, -, -, -, formRead⟩ := (Schema.readNode_eq_ok ..).1 read
  exact ⟨fields, Schema.standBelow_of_fields leads object, (Schema.readForm_eq_ok _).1 formRead⟩

theorem readAt_of_mem_readNodes {fields : List (String × Json)} {keyword name : String}
    {nodes : List (String × Node)} (below : StandBelow document here fields)
    (read : readNodes names here fields keyword = .ok nodes) (member : (name, node) ∈ nodes) :
    ReadAt document names (here.descend [keyword, name]) node := by
  rcases (Schema.readNodes_eq_ok ..).1 read with ⟨-, rfl⟩ | ⟨held, entries, found, object, read⟩
  · cases member
  · obtain ⟨value, inside, nodeRead, -⟩ := Schema.entry_of_readEntries read member
    have leads := Schema.standBelow_of_fields (below.lookup found) object _ inside
    exact ⟨false, value, leads, nodeRead⟩

/-- A step of a place goes where the reader went. -/
theorem ReadAt.step (readAt : ReadAt document names here node) {step : Step} {child : Node}
    (leads : HasStep node step child) :
    ReadAt document names (here.descend step.segments) child := by
  obtain ⟨fields, below, formRead⟩ := readAt.form
  cases leads with
  | element form =>
    rw [form] at formRead
    cases formRead with
    | elements _ found read => exact ⟨false, _, below.lookup found, read⟩
  | value form =>
    rw [form] at formRead
    cases formRead with
    | values _ found read => exact ⟨false, _, below.lookup found, read⟩
  | required form member =>
    rw [form] at formRead
    cases formRead with
    | properties _ _ requiredRead _ _ _ => exact readAt_of_mem_readNodes below requiredRead member
  | optional form member =>
    rw [form] at formRead
    cases formRead with
    | properties _ _ _ optionalRead _ _ => exact readAt_of_mem_readNodes below optionalRead member
  | variant form member =>
    rw [form] at formRead
    cases formRead with
    | discriminator _ _ found object _ read =>
      obtain ⟨value, inside, nodeRead, -⟩ := Schema.entry_of_readEntries read member
      have leads := Schema.standBelow_of_fields (below.lookup found) object _ inside
      exact ⟨false, value, leads, nodeRead⟩

end Nodes

section Documents

variable {document : Json} {schema : Schema} {rootName : String}

/-- Every place of a schema is where its node was read. -/
theorem Located.readAt (read : Schema.ofJson document = .ok schema) {place : Place}
    (located : Located schema rootName place) :
    ReadAt document (keys schema.definitions) place.pointer place.node := by
  obtain ⟨fields, definitions, object, found, rootRead, definitionsRead, -⟩ :=
    (Schema.ofJson_eq_ok ..).1 read
  have top := Pointer.leadsTo_root document
  induction located with
  | root =>
    rw [Schema.keys_readEntries definitionsRead]
    exact ⟨true, document, top, rootRead⟩
  | definition member =>
    rw [Schema.keys_readEntries definitionsRead]
    obtain ⟨value, inside, nodeRead, -⟩ := Schema.entry_of_readEntries definitionsRead member
    rcases found with ⟨-, rfl⟩ | ⟨held, found, inner⟩
    · cases inside
    · have leads := Schema.standBelow_of_fields (top.field object found) inner _ inside
      exact ⟨false, value, leads, nodeRead⟩
  | down _ leads ih => exact ih.step leads

/-- What the pointers of a catalog lead to in a document. -/
structure Rooted (document : Json) (catalog : Catalog) : Prop where
  declarations : ∀ d ∈ catalog.declarations, Bears document d.pointer d.metadata
  uses : ∀ use ∈ catalog.uses, Bears document use.pointer use.metadata
  unions : ∀ d ∈ catalog.declarations, d.shape.IsUnion →
    ∃ tag, LeadsTo document (d.pointer.child "discriminator") tag

theorem Shaped.form_of_union {all : List Place} {id : Nat} {place : Place} {shape : Shape}
    (shaped : Shaped schema all id place shape) (union : shape.IsUnion) :
    ∃ tag mapping, place.node.form = .discriminator tag mapping := by
  obtain ⟨tag, variants, rfl⟩ := union
  cases shaped with
  | own _ shaped =>
    cases shaped with
    | union form _ => exact ⟨_, _, form⟩

theorem rooted_ofSchema (read : Schema.ofJson document = .ok schema) (rootName : String) :
    Rooted document (ofSchema schema rootName) := by
  have mirrors := mirrors_ofSchema (Schema.regular_of_ofJson read) rootName
  have placed {d : Declaration} (member : d ∈ (ofSchema schema rootName).declarations) :
      ∃ place, Located schema rootName place ∧
        Describes schema (declaredPlaces schema rootName) place d := by
    obtain ⟨i, found⟩ := List.mem_iff_getElem?.1 member
    obtain ⟨place, numbered, describes⟩ := mirrors.place_at found
    exact ⟨place, located_of_getElem? numbered, describes⟩
  constructor
  case declarations =>
    intro d member
    obtain ⟨place, located, describes⟩ := placed member
    rw [describes.pointer, describes.metadata]
    exact (located.readAt read).bears
  case uses =>
    intro use member
    obtain ⟨place, first, located, -, means⟩ := mirrors.means_of_mem_uses member
    rw [means.pointer_eq, means.metadata_eq]
    exact (located.readAt read).bears
  case unions =>
    intro d member union
    obtain ⟨place, located, describes⟩ := placed member
    obtain ⟨tag, mapping, form⟩ := describes.shape.form_of_union union
    obtain ⟨fields, below, formRead⟩ := (located.readAt read).form
    rw [form] at formRead
    rw [describes.pointer]
    cases formRead with
    | discriminator _ tagFound _ _ _ _ => exact ⟨_, below.lookup tagFound⟩

end Documents

end Catalog

end SchemaBindings
