import SchemaBindings.Proofs.Schema.WellFormed

/-! What a catalog relies on in the schema it is made from. A schema that was read keeps to it at
every node. -/

namespace SchemaBindings.Schema

open Keyed (keys Increasing)

/-- Entries are in key order, no property is both required and optional, and a mapping holds
properties that do not accept null. -/
structure RegularNode (node : Node) : Prop where
  properties : ∀ required optional additional,
    node.form = .properties required optional additional →
    Increasing required ∧ Increasing optional ∧ ∀ name ∈ keys required, name ∉ keys optional
  mapping : ∀ tag mapping, node.form = .discriminator tag mapping →
    Increasing mapping ∧ ∀ entry ∈ mapping, entry.2.nullable = false ∧
      ∃ required optional additional, entry.2.form = .properties required optional additional

structure Regular (schema : Schema) : Prop where
  definitions : Increasing schema.definitions
  nodes : ∀ node, Contains schema node → RegularNode node
  refs : ∀ node, Contains schema node → ∀ target, node.form = .ref target →
    target ∈ keys schema.definitions

section Reading

variable {names : List String} {here : Pointer}

theorem increasing_readEntries {check : String → Pointer → Node → Except Fault Unit}
    {entries : List (String × Json)} {nodes : List (String × Node)}
    (read : readEntries names here check entries = .ok nodes) (increasing : Increasing entries) :
    Increasing nodes := by
  rw [Keyed.increasing_iff_keys] at increasing ⊢
  rwa [keys_readEntries read]

theorem increasing_readNodes {fields : List (String × Json)} {keyword : String}
    {nodes : List (String × Node)} (read : readNodes names here fields keyword = .ok nodes) :
    Increasing nodes := by
  rcases (readNodes_eq_ok ..).1 read with ⟨-, rfl⟩ | ⟨_, entries, -, object, read⟩
  · exact .nil
  · exact increasing_readEntries read (Json.increasing_fields object)

theorem regularNode_of_readNode {isRoot : Bool} {value : Json} {node : Node}
    (read : readNode names isRoot here value = .ok node) : RegularNode node := by
  obtain ⟨fields, formRead⟩ := form_of_readNode read
  constructor
  case properties =>
    intro required optional additional form
    rw [form] at formRead
    cases formRead with
    | properties _ _ requiredRead optionalRead disjoint _ =>
      exact ⟨increasing_readNodes requiredRead, increasing_readNodes optionalRead,
        fun name inRequired inOptional => disjoint name inOptional inRequired⟩
  case mapping =>
    intro tag mapping form
    rw [form] at formRead
    cases formRead with
    | discriminator _ _ _ object _ entriesRead =>
      refine ⟨increasing_readEntries entriesRead (Json.increasing_fields object),
        fun entry member => ?_⟩
      obtain ⟨nullable, required, optional, additional, properties, -⟩ :=
        (variants_of_readNode read form).2 entry member
      exact ⟨nullable, required, optional, additional, properties⟩

end Reading

theorem regular_of_ofJson {document : Json} {schema : Schema}
    (read : ofJson document = .ok schema) : Regular schema := by
  constructor
  case definitions =>
    obtain ⟨_, _, _, found, _, definitionsRead, _⟩ := (ofJson_eq_ok ..).1 read
    rcases found with ⟨-, rfl⟩ | ⟨_, -, object⟩
    · exact increasing_readEntries definitionsRead .nil
    · exact increasing_readEntries definitionsRead (Json.increasing_fields object)
  case nodes =>
    intro node within
    obtain ⟨_, _, _, nodeRead⟩ := readNode_of_contains read within
    exact regularNode_of_readNode nodeRead
  case refs =>
    intro node within target form
    obtain ⟨_, _, _, nodeRead⟩ := readNode_of_contains read within
    exact ref_known_of_readNode nodeRead form

/-- References on from a node of a schema that was read lead to one that is no reference. -/
theorem settles_of_ofJson {document : Json} {schema : Schema}
    (read : ofJson document = .ok schema) {node : Node} (within : Contains schema node) :
    ∃ steps last, Follows schema.definitions steps node last ∧
      ∀ target, last.form ≠ .ref target := by
  have regular := regular_of_ofJson read
  obtain ⟨_, _, _, _, _, _, chains⟩ := (ofJson_eq_ok ..).1 read
  have known : ∀ name target, RefersTo schema.definitions name target →
      target ∈ keys schema.definitions := by
    rintro name target ⟨definition, found, form⟩
    exact regular.refs definition (.definition (Keyed.mem_of_lookup found)) target form
  obtain ⟨steps, -, settles⟩ :=
    settles_of_checkRefChains chains known node (regular.refs node within)
  exact ⟨steps, settles⟩

/-- Shapes that are made of shapes, in a color that may be null. -/
def drawing : Json :=
  .object [
    ("definitions", .object [
      ("color", .object [
        ("enum", .array [.string "red", .string "blue"]), ("nullable", .bool true)]),
      ("shape", .object [
        ("discriminator", .string "kind"),
        ("mapping", .object [
          ("circle", .object [("properties", .object [
            ("radius", .object [("type", .string "float64")])])]),
          ("group", .object [("optionalProperties", .object [
            ("parts", .object [("ref", .string "shapes")])])])])]),
      ("shapes", .object [
        ("elements", .object [("ref", .string "shape")]), ("nullable", .bool true)])]),
    ("properties", .object [
      ("all", .object [("ref", .string "shapes")]),
      ("color", .object [("ref", .string "color")]),
      ("corner", .object [("properties", .object [
        ("x", .object [("type", .string "int32")]),
        ("y", .object [("type", .string "int32")])])])])]

theorem exists_ofJson_drawing : ∃ schema, ofJson drawing = .ok schema :=
  exists_of_isOk (by decide +kernel)

end SchemaBindings.Schema
