import Mathlib.Logic.Relation
import SchemaBindings.Json.Value
import SchemaBindings.Schema.Basic
import SchemaBindings.Schema.Fault
import SchemaBindings.Schema.Reading

/-! The grammar of schema documents, said of values alone: what each node has to be by itself, which
values stand for the nodes below it, and what a whole document adds to this. -/

namespace SchemaBindings.Json

/-- What an object holds under a key. -/
def field? (value : Json) (key : String) : Option Json := value.fields?.bind (·.lookup key)

def HasKey (value : Json) (key : String) : Prop := ∃ held, value.field? key = some held

def IsObject (value : Json) : Prop := ∃ members, value = .object members

def IsBool (value : Json) : Prop := ∃ flag, value = .bool flag

def IsString (value : Json) : Prop := ∃ text, value = .string text

theorem isObject_iff {value : Json} : value.IsObject ↔ ∃ fields, value.fields? = some fields := by
  cases value <;> simp [IsObject, fields?]

theorem field?_eq_lookup {value : Json} {fields : List (String × Json)}
    (object : value.fields? = some fields) (key : String) :
    value.field? key = fields.lookup key := by
  simp [field?, object]

theorem hasKey_iff {value : Json} {fields : List (String × Json)}
    (object : value.fields? = some fields) {key : String} :
    value.HasKey key ↔ key ∈ Keyed.keys fields := by
  simp only [HasKey, field?_eq_lookup object, Keyed.mem_keys_iff_lookup]

theorem fields_of_field? {value held : Json} {key : String} (found : value.field? key = some held) :
    ∃ fields, value.fields? = some fields ∧ fields.lookup key = some held :=
  Option.bind_eq_some_iff.1 found

theorem weight_field? {value held : Json} {key : String} (found : value.field? key = some held) :
    held.weight < value.weight := by
  obtain ⟨fields, object, found⟩ := fields_of_field? found
  obtain ⟨members, rfl, rfl⟩ := fields?_eq_some.1 object
  have inside := weight_lookup found
  have sorted := weightMembers_ofList members
  simp only [weight]
  omega

end SchemaBindings.Json

namespace SchemaBindings.Grammar

/-- A description is a text, and the descriptions of enum values are texts. -/
structure IsMetadata (value : Json) : Prop where
  object : value.IsObject
  description : ∀ held, value.field? "description" = some held → held.IsString
  enumDescription : ∀ held, value.field? "enumDescription" = some held → held.IsObject ∧
    ∀ enumValue text, held.field? enumValue = some text → text.IsString

def HasGroup (value : Json) (group : FormGroup) : Prop :=
  ∃ keyword ∈ group.keywords, value.HasKey keyword

/-- What a mapping entry is beside a node: it has properties, does not accept null and leaves the
tag to its union. -/
structure IsVariant (tag : String) (value : Json) : Prop where
  form : value.HasKey "properties" ∨ value.HasKey "optionalProperties"
  nullable : value.field? "nullable" ≠ some (.bool true)
  required : ∀ properties, value.field? "properties" = some properties → ¬ properties.HasKey tag
  optional : ∀ properties, value.field? "optionalProperties" = some properties →
    ¬ properties.HasKey tag

/-- What a node has to be by itself, where `defined` are the names that references may use. -/
structure ObeysRules (defined : String → Prop) (isRoot : Bool) (value : Json) : Prop where
  object : value.IsObject
  keywords : ∀ key, value.HasKey key → key ∈ Schema.keywords
  definitions : value.HasKey "definitions" → isRoot = true
  metadata : ∀ held, value.field? "metadata" = some held → IsMetadata held
  nullable : ∀ held, value.field? "nullable" = some held → held.IsBool
  exclusive : ∀ group other, HasGroup value group → HasGroup value other → group = other
  ref : ∀ held, value.field? "ref" = some held → ∃ name, defined name ∧ held = .string name
  type : ∀ held, value.field? "type" = some held →
    ∃ primitive : Primitive, held = .string primitive.keyword
  enum : ∀ held, value.field? "enum" = some held →
    ∃ values : List String, values ≠ [] ∧ values.Nodup ∧ held = .array (values.map .string)
  properties : ∀ held, value.field? "properties" = some held → held.IsObject
  optionalProperties : ∀ held, value.field? "optionalProperties" = some held → held.IsObject
  disjoint : ∀ required optional, value.field? "properties" = some required →
    value.field? "optionalProperties" = some optional →
    ∀ name, required.HasKey name → ¬ optional.HasKey name
  additional : ∀ held, value.field? "additionalProperties" = some held →
    held.IsBool ∧ (value.HasKey "properties" ∨ value.HasKey "optionalProperties")
  discriminator : ∀ held, value.field? "discriminator" = some held →
    held.IsString ∧ value.HasKey "mapping"
  mapping : ∀ held, value.field? "mapping" = some held →
    held.IsObject ∧ (∃ tagValue, held.HasKey tagValue) ∧
      ∃ tag, value.field? "discriminator" = some (.string tag) ∧
        ∀ tagValue entry, held.field? tagValue = some entry → IsVariant tag entry

/-- The values that stand for the nodes right below a node. -/
inductive Subnode (value : Json) : Json → Prop
  | item {keyword : String} {child : Json} (holds : keyword ∈ ["elements", "values"])
      (found : value.field? keyword = some child) : Subnode value child
  | entry {keyword name : String} {entries child : Json}
      (holds : keyword ∈ ["properties", "optionalProperties", "mapping"])
      (found : value.field? keyword = some entries) (entry : entries.field? name = some child) :
      Subnode value child

theorem Subnode.of_lookup {value child : Json} {fields : List (String × Json)} {keyword : String}
    (object : value.fields? = some fields) (holds : keyword ∈ ["elements", "values"])
    (found : fields.lookup keyword = some child) : Subnode value child :=
  .item holds ((Json.field?_eq_lookup object _).trans found)

theorem Subnode.of_mem {value held : Json} {fields entries : List (String × Json)}
    {entry : String × Json} {keyword : String} (object : value.fields? = some fields)
    (holds : keyword ∈ ["properties", "optionalProperties", "mapping"])
    (found : fields.lookup keyword = some held) (inner : held.fields? = some entries)
    (member : entry ∈ entries) : Subnode value entry.2 := by
  have reached := Keyed.lookup_of_mem (Json.increasing_fields inner) member
  exact .entry holds ((Json.field?_eq_lookup object _).trans found)
    ((Json.field?_eq_lookup inner _).trans reached)

inductive IsNode (defined : String → Prop) : Bool → Json → Prop
  | intro {isRoot : Bool} {value : Json} (rules : ObeysRules defined isRoot value)
      (subnodes : ∀ child, Subnode value child → IsNode defined false child) :
      IsNode defined isRoot value

theorem IsNode.rules {defined : String → Prop} {isRoot : Bool} {value : Json}
    (valid : IsNode defined isRoot value) : ObeysRules defined isRoot value := by
  cases valid with
  | intro rules _ => exact rules

def Defines (document : Json) (name : String) (node : Json) : Prop :=
  ∃ definitions, document.field? "definitions" = some definitions ∧
    definitions.field? name = some node

/-- The first name is defined as a reference to the second. -/
def RefersTo (document : Json) (name target : String) : Prop :=
  ∃ node, Defines document name node ∧ node.field? "ref" = some (.string target)

def Defined (document : Json) (name : String) : Prop := ∃ node, Defines document name node

/-- The root and all definitions are nodes, and no chain of references is a cycle. -/
structure IsDocument (document : Json) : Prop where
  root : IsNode (Defined document) true document
  object : ∀ held, document.field? "definitions" = some held → held.IsObject
  definitions : ∀ name node, Defines document name node → IsNode (Defined document) false node
  acyclic : ∀ name, ¬ Relation.TransGen (RefersTo document) name name

theorem weight_of_subnode {value child : Json} (below : Subnode value child) :
    child.weight < value.weight := by
  cases below with
  | item _ found => exact Json.weight_field? found
  | entry _ found entry =>
    exact Nat.lt_trans (Json.weight_field? entry) (Json.weight_field? found)

end SchemaBindings.Grammar
