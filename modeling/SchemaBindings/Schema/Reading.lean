import SchemaBindings.Json.Text
import SchemaBindings.Schema.RefChain

/-! Reading a schema from a document. The first fault ends the reading; members are visited in
key order, so that the fault found does not depend on the order they were written in. -/

namespace SchemaBindings.Schema

def keywords : List String :=
  ["additionalProperties", "definitions", "discriminator", "elements", "enum", "mapping",
   "metadata", "nullable", "optionalProperties", "properties", "ref", "type", "values"]

def wrongType {α : Type} (here : Pointer) (keyword : String) (expected : Expected) :
    Except Fault α :=
  .error ⟨.wrongType keyword expected, here⟩

def checkKeywords (isRoot : Bool) (here : Pointer) : List (String × Json) → Except Fault Unit
  | [] => .ok ()
  | (key, _) :: rest =>
    if !keywords.contains key then .error ⟨.unknownKeyword key, here.child key⟩
    else if key == "definitions" && !isRoot then .error ⟨.nestedDefinitions, here.child key⟩
    else checkKeywords isRoot here rest

def readFlag (here : Pointer) (fields : List (String × Json)) (keyword : String) :
    Except Fault Bool :=
  match fields.lookup keyword with
  | none => .ok false
  | some (.bool value) => .ok value
  | some _ => wrongType (here.child keyword) keyword .boolean

def readEnumDescriptions (here : Pointer) :
    List (String × Json) → Except Fault (List (String × String))
  | [] => .ok []
  | (value, .string text) :: rest => do
    return (value, text) :: (← readEnumDescriptions here rest)
  | (value, _) :: _ => wrongType (here.child value) "enumDescription" .stringObject

def readMetadataFields (here : Pointer) : List (String × Json) → Except Fault Metadata
  | [] => .ok .empty
  | (key, value) :: rest => do
    if key == "description" then
      match value with
      | .string text => return { ← readMetadataFields here rest with description := some text }
      | _ => wrongType (here.child key) key .string
    else if key == "enumDescription" then
      match value.fields? with
      | some entries =>
        let descriptions ← readEnumDescriptions (here.child key) entries
        return { ← readMetadataFields here rest with enumDescriptions := descriptions }
      | none => wrongType (here.child key) key .stringObject
    else
      let metadata ← readMetadataFields here rest
      return { metadata with extensions := (key, value) :: metadata.extensions }

def readMetadata (here : Pointer) (fields : List (String × Json)) : Except Fault Metadata :=
  match fields.lookup "metadata" with
  | none => .ok .empty
  | some value =>
    match value.fields? with
    | some entries => readMetadataFields (here.child "metadata") entries
    | none => wrongType (here.child "metadata") "metadata" .object

def readRef (definitions : List String) (here : Pointer) : Json → Except Fault Form
  | .string name =>
    if definitions.contains name then .ok (.ref name) else .error ⟨.unresolvedRef name, here⟩
  | _ => wrongType here "ref" .string

def readType (here : Pointer) : Json → Except Fault Form
  | .string keyword =>
    match Primitive.ofKeyword? keyword with
    | some primitive => .ok (.type primitive)
    | none => .error ⟨.unknownType keyword, here⟩
  | _ => wrongType here "type" .string

/-- The values from an index on; `seen` holds those before it. -/
def readEnumValues (here : Pointer) (index : Nat) (seen : List String) :
    List Json → Except Fault (List String)
  | [] => .ok []
  | .string value :: rest =>
    if seen.contains value then .error ⟨.duplicateEnumValue value, here.element index⟩
    else do return value :: (← readEnumValues here (index + 1) (value :: seen) rest)
  | _ :: _ => wrongType (here.element index) "enum" .strings

def readEnum (here : Pointer) : Json → Except Fault Form
  | .array [] => .error ⟨.emptyEnum, here⟩
  | .array items => do return .enum (← readEnumValues here 0 [] items)
  | _ => wrongType here "enum" .strings

/-- The groups that have a keyword among the fields. -/
def presentGroups (fields : List (String × Json)) : List FormGroup :=
  FormGroup.all.filter (fun group => group.keywords.any (Keyed.has fields))

/-- A mapping entry has the properties form, does not accept null and leaves the tag alone. -/
def checkVariant (tag : String) (tagValue : String) (here : Pointer) (node : Node) :
    Except Fault Unit :=
  match node.form with
  | .properties required optional _ =>
    if node.nullable then .error ⟨.nullableMapping tagValue, here.child "nullable"⟩
    else if Keyed.has required tag then
      .error ⟨.mappingRedefinesTag tagValue tag, here.descend ["properties", tag]⟩
    else if Keyed.has optional tag then
      .error ⟨.mappingRedefinesTag tagValue tag, here.descend ["optionalProperties", tag]⟩
    else .ok ()
  | _ => .error ⟨.mappingNotProperties tagValue, here⟩

mutual
def readNode (definitions : List String) (isRoot : Bool) (here : Pointer) :
    Json → Except Fault Node
  | .object members => do
    let fields := Keyed.ofList members
    checkKeywords isRoot here fields
    let metadata ← readMetadata here fields
    let nullable ← readFlag here fields "nullable"
    have : Json.weightMembers (Keyed.ofList members) ≤ Json.weightMembers members :=
      Json.weightMembers_ofList members
    let form ← readForm definitions here fields
    return ⟨form, nullable, metadata⟩
  | _ => .error ⟨.notAnObject, here⟩
termination_by value => value.weight
decreasing_by simp only [Json.weight]; omega

def readForm (definitions : List String) (here : Pointer) (fields : List (String × Json)) :
    Except Fault Form := do
  let groups := presentGroups fields
  if groups.length > 1 then .error ⟨.ambiguousForm groups, here⟩
  else if let some value := fields.lookup "ref" then
    readRef definitions (here.child "ref") value
  else if let some value := fields.lookup "type" then
    readType (here.child "type") value
  else if let some value := fields.lookup "enum" then
    readEnum (here.child "enum") value
  else
    match elements : fields.lookup "elements" with
    | some item =>
      have := Json.weight_lookup elements
      return .elements (← readNode definitions false (here.child "elements") item)
    | none =>
    match values : fields.lookup "values" with
    | some item =>
      have := Json.weight_lookup values
      return .values (← readNode definitions false (here.child "values") item)
    | none =>
    if groups.contains .properties then
      if !Keyed.has fields "properties" && !Keyed.has fields "optionalProperties" then
        .error ⟨.incompleteForm "additionalProperties" "properties",
          here.child "additionalProperties"⟩
      else do
        let required ← readNodes definitions here fields "properties"
        let optional ← readNodes definitions here fields "optionalProperties"
        match optional.find? (fun entry => Keyed.has required entry.1) with
        | some (name, _) =>
          .error ⟨.overlappingProperties name, here.descend ["optionalProperties", name]⟩
        | none =>
          let additional ← readFlag here fields "additionalProperties"
          return .properties required optional additional
    else if groups.contains .discriminator then
      match fields.lookup "discriminator", mapping : fields.lookup "mapping" with
      | none, _ => .error ⟨.incompleteForm "mapping" "discriminator", here.child "mapping"⟩
      | _, none =>
        .error ⟨.incompleteForm "discriminator" "mapping", here.child "discriminator"⟩
      | some (.string tag), some (.object members) =>
        if members.isEmpty then .error ⟨.emptyMapping, here.child "mapping"⟩
        else do
          have := Json.weight_object_lookup mapping
          let mapping ← readEntries definitions (here.child "mapping") (checkVariant tag)
            (Keyed.ofList members)
          return .discriminator tag mapping
      | some (.string _), some _ => wrongType (here.child "mapping") "mapping" .object
      | some _, some _ => wrongType (here.child "discriminator") "discriminator" .string
    else return .empty
termination_by Json.weightMembers fields + 2
decreasing_by all_goals omega

/-- The nodes under a keyword that may be missing. -/
def readNodes (definitions : List String) (here : Pointer) (fields : List (String × Json))
    (keyword : String) : Except Fault (List (String × Node)) :=
  match found : fields.lookup keyword with
  | none => .ok []
  | some (.object members) =>
    have := Json.weight_object_lookup found
    readEntries definitions (here.child keyword) (fun _ _ _ => .ok ()) (Keyed.ofList members)
  | some _ => wrongType (here.child keyword) keyword .object
termination_by Json.weightMembers fields + 1
decreasing_by omega

/-- Reads every entry and checks each one before the next is read. -/
def readEntries (definitions : List String) (here : Pointer)
    (check : String → Pointer → Node → Except Fault Unit) :
    List (String × Json) → Except Fault (List (String × Node))
  | [] => .ok []
  | (name, value) :: rest => do
    let node ← readNode definitions false (here.child name) value
    check name (here.child name) node
    return (name, node) :: (← readEntries definitions here check rest)
termination_by entries => Json.weightMembers entries
decreasing_by all_goals simp only [Json.weightMembers]; omega
end

/-- The root is read before the definitions, and chains of references are followed last. -/
def ofJson (document : Json) : Except Fault Schema :=
  match document.fields? with
  | none => .error ⟨.notAnObject, .root⟩
  | some fields => do
    let definitions ← match fields.lookup "definitions" with
      | none => pure []
      | some value =>
        match value.fields? with
        | some entries => pure entries
        | none => wrongType (Pointer.root.child "definitions") "definitions" .object
    let names := Keyed.keys definitions
    let root ← readNode names true .root document
    let nodes ← readEntries names (Pointer.root.child "definitions") (fun _ _ _ => .ok ())
      definitions
    checkRefChains nodes
    return ⟨root, nodes⟩

def ofText (text : String) : Except Fault Schema :=
  match Json.ofText? text with
  | some document => ofJson document
  | none => .error ⟨.notJson, .root⟩

end SchemaBindings.Schema
