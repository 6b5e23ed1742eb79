import SchemaBindings.Catalog.Basic

/-! From a schema to its declarations. Every function takes the first number that is still free
and gives, beside its result, the declarations it made: these have the numbers from there on,
without a gap. -/

namespace SchemaBindings

mutual
def Node.size : Node → Nat
  | .mk form _ _ => form.size + 1

def Form.size : Form → Nat
  | .elements item => item.size + 1
  | .values item => item.size + 1
  | .properties required optional _ => entriesSize required + entriesSize optional + 1
  | .discriminator _ mapping => entriesSize mapping + 1
  | _ => 1

def entriesSize : List (String × Node) → Nat
  | [] => 0
  | (_, node) :: rest => node.size + 1 + entriesSize rest
end

namespace Catalog

/-- A property and whether it is required. -/
structure Property where
  name : String
  required : Bool
  node : Node

def Property.keyword (p : Property) : String :=
  if p.required then "properties" else "optionalProperties"

def propertiesSize : List Property → Nat
  | [] => 0
  | p :: rest => p.node.size + 1 + propertiesSize rest

/-- Required and optional properties in one list, by name. -/
def merge : List (String × Node) → List (String × Node) → List Property
  | [], optional => optional.map (fun (name, node) => ⟨name, false, node⟩)
  | required, [] => required.map (fun (name, node) => ⟨name, true, node⟩)
  | (r, required) :: rs, (o, optional) :: os =>
    if o < r then ⟨o, false, optional⟩ :: merge ((r, required) :: rs) os
    else ⟨r, true, required⟩ :: merge rs ((o, optional) :: os)
termination_by required optional => required.length + optional.length

theorem propertiesSize_map (required : Bool) (entries : List (String × Node)) :
    propertiesSize (entries.map (fun (name, node) => ⟨name, required, node⟩)) =
      entriesSize entries := by
  induction entries with
  | nil => rfl
  | cons e rest ih => simp [propertiesSize, entriesSize, ih]

theorem propertiesSize_merge (required optional : List (String × Node)) :
    propertiesSize (merge required optional) = entriesSize required + entriesSize optional := by
  fun_induction merge required optional with
  | case1 optional => simp [propertiesSize_map, entriesSize]
  | case2 required _ => simp [propertiesSize_map, entriesSize]
  | case3 r required rs o optional os _ ih =>
    simp only [propertiesSize, entriesSize] at ih ⊢
    omega
  | case4 r required rs o optional os _ ih =>
    simp only [propertiesSize, entriesSize] at ih ⊢
    omega

/-- The number of a definition: the root comes before all of them. -/
def definitionId? (schema : Schema) (name : String) : Option Nat :=
  (schema.definitions.findIdx? (·.1 == name)).map (· + 1)

/-- A reference accepts null also when it is its target that says so; a target that is only
wrapped says so itself. -/
def targetNullable (schema : Schema) (name : String) : Bool :=
  match schema.definitions.lookup name with
  | some target => target.isNameable && target.nullable
  | none => false

mutual
/-- The use of a node's type inside the declaration `owner`. A nameable node becomes a declaration
with the first free number. -/
def useOf (schema : Schema) (owner next : Nat) (path : List String) (here : Pointer) :
    Node → TypeUse × List Declaration
  | .mk form nullable metadata =>
    match shapeOf? schema next (next + 1) path here form metadata with
    | some (shape, nested) =>
      (⟨.declared next, nullable, metadata, here⟩,
        ⟨next, path, shape, metadata, nullable, some owner, here⟩ :: nested)
    | none =>
      match form with
      | .type primitive => (⟨.primitive primitive, nullable, metadata, here⟩, [])
      | .ref name =>
        let kind : TypeKind := match definitionId? schema name with
          | some id => .declared id
          | none => .anything
        (⟨kind, nullable || targetNullable schema name, metadata, here⟩, [])
      | .elements item =>
        let (item, nested) := useOf schema owner next path (here.child "elements") item
        (⟨.elements item, nullable, metadata, here⟩, nested)
      | .values item =>
        let (item, nested) := useOf schema owner next path (here.child "values") item
        (⟨.values item, nullable, metadata, here⟩, nested)
      | _ => (⟨.anything, nullable, metadata, here⟩, [])
termination_by node => node.size
decreasing_by
  · exact Nat.lt_succ_self form.size
  · simp only [Node.size, Form.size]; omega
  · simp only [Node.size, Form.size]; omega

/-- The shape of a nameable form, for the declaration with number `id`. -/
def shapeOf? (schema : Schema) (id next : Nat) (path : List String) (here : Pointer)
    (form : Form) (metadata : Metadata) : Option (Shape × List Declaration) :=
  match form with
  | .enum values =>
    some (.enumeration (values.map (fun v => ⟨v, metadata.enumDescribed v⟩)), [])
  | .properties required optional additional =>
    let (members, nested) := membersOf schema id next path here (merge required optional)
    some (.record members additional, nested)
  | .discriminator tag mapping =>
    let (variants, nested) := variantsOf schema id next path here mapping
    some (.union tag variants, nested)
  | _ => none
termination_by form.size
decreasing_by all_goals simp only [Form.size, propertiesSize_merge]; omega

def membersOf (schema : Schema) (owner next : Nat) (path : List String) (here : Pointer) :
    List Property → List Member × List Declaration
  | [] => ([], [])
  | p :: rest =>
    let (type, nested) :=
      useOf schema owner next (path ++ [p.name]) (here.descend [p.keyword, p.name]) p.node
    let (members, more) := membersOf schema owner (next + nested.length) path here rest
    (⟨p.name, type, p.required⟩ :: members, nested ++ more)
termination_by properties => propertiesSize properties
decreasing_by all_goals simp only [propertiesSize]; omega

/-- The variants of the union `parent`. An entry that has no properties gives no variant. -/
def variantsOf (schema : Schema) (parent next : Nat) (path : List String) (here : Pointer) :
    List (String × Node) → List Nat × List Declaration
  | [] => ([], [])
  | (tagValue, .mk (.properties required optional additional) _ metadata) :: rest =>
    let path' := path ++ [tagValue]
    let here' := here.descend ["mapping", tagValue]
    let (members, nested) := membersOf schema next (next + 1) path' here' (merge required optional)
    let (ids, more) := variantsOf schema parent (next + 1 + nested.length) path here rest
    (next :: ids,
      ⟨next, path', .variant parent tagValue members additional, metadata, false, some parent,
        here'⟩ :: nested ++ more)
  | _ :: rest => variantsOf schema parent next path here rest
termination_by entries => entriesSize entries
decreasing_by
  all_goals simp only [entriesSize, Node.size, Form.size, propertiesSize_merge]; omega
end

/-- The declaration of the root or of a definition. -/
def topLevel (schema : Schema) (id next : Nat) (name : String) (here : Pointer) (node : Node) :
    Declaration × List Declaration :=
  let (shape, nested) := match shapeOf? schema id next [name] here node.form node.metadata with
    | some result => result
    | none =>
      let (inner, nested) := useOf schema id next [name] here node
      (.wrapper inner, nested)
  (⟨id, [name], shape, node.metadata, node.nullable, none, here⟩, nested)

/-- The declarations of several top-level nodes, and apart from them those nested in them. -/
def topLevels (schema : Schema) (id next : Nat) :
    List (String × Pointer × Node) → List Declaration × List Declaration
  | [] => ([], [])
  | (name, here, node) :: rest =>
    let (declaration, nested) := topLevel schema id next name here node
    let (declarations, more) := topLevels schema (id + 1) (next + nested.length) rest
    (declaration :: declarations, nested ++ more)

def ofSchema (schema : Schema) (rootName : String) : Catalog :=
  let definitions := schema.definitions.map
    (fun (name, node) => (name, Pointer.root.descend ["definitions", name], node))
  let (declarations, nested) := topLevels schema 0 (schema.definitions.length + 1)
    ((rootName, .root, schema.root) :: definitions)
  ⟨declarations ++ nested, (Keyed.keys schema.definitions).zipIdx 1⟩

end Catalog

end SchemaBindings
