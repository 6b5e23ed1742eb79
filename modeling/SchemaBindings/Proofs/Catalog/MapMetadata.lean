import SchemaBindings.Proofs.Catalog.Links
import SchemaBindings.Proofs.Schema.MapMetadata

/-! Metadata is carried along when a catalog is made. Changing it in the schema changes it in the
catalog, and nothing else. -/

namespace SchemaBindings

open Keyed (mapValues)

mutual
def TypeUse.mapMetadata (f : Metadata → Metadata) : TypeUse → TypeUse
  | .mk kind nullable metadata pointer => .mk (kind.mapMetadata f) nullable (f metadata) pointer

def TypeKind.mapMetadata (f : Metadata → Metadata) : TypeKind → TypeKind
  | .anything => .anything
  | .primitive primitive => .primitive primitive
  | .elements item => .elements (item.mapMetadata f)
  | .values item => .values (item.mapMetadata f)
  | .declared id => .declared id
end

section Records

variable (f : Metadata → Metadata)

def Member.mapMetadata (m : Member) : Member := { m with type := m.type.mapMetadata f }

/-- The values of an enumeration are described by the metadata of its declaration. -/
def Shape.mapMetadata (own : Metadata) : Shape → Shape
  | .record members additional => .record (members.map (Member.mapMetadata f)) additional
  | .enumeration values =>
    .enumeration (values.map (fun v => ⟨v.value, (f own).enumDescribed v.value⟩))
  | .union tag variants => .union tag variants
  | .variant parent tagValue members additional =>
    .variant parent tagValue (members.map (Member.mapMetadata f)) additional
  | .wrapper inner => .wrapper (inner.mapMetadata f)

def Declaration.mapMetadata (d : Declaration) : Declaration :=
  { d with shape := d.shape.mapMetadata f d.metadata, metadata := f d.metadata }

def Catalog.mapMetadata (c : Catalog) : Catalog :=
  ⟨c.declarations.map (Declaration.mapMetadata f), c.named⟩

end Records

namespace Catalog

def Property.mapMetadata (f : Metadata → Metadata) (p : Property) : Property :=
  { p with node := p.node.mapMetadata f }

section Making

variable (f : Metadata → Metadata)

theorem merge_mapMetadata (required optional : List (String × Node)) :
    merge (mapValues (Node.mapMetadata f) required) (mapValues (Node.mapMetadata f) optional) =
      (merge required optional).map (Property.mapMetadata f) := by
  fun_induction merge required optional with
  | case1 optional => simp [merge, mapValues, Property.mapMetadata]
  | case2 required nonempty =>
    cases required with
    | nil => exact (nonempty rfl).elim
    | cons entry rest => simp [merge, mapValues, Property.mapMetadata]
  | case3 r required rs o optional os less ih =>
    simp only [Keyed.mapValues_cons] at ih ⊢
    rw [merge, if_pos less, ih, List.map_cons]
    rfl
  | case4 r required rs o optional os less ih =>
    simp only [Keyed.mapValues_cons] at ih ⊢
    rw [merge, if_neg less, ih, List.map_cons]
    rfl

theorem definitionId?_mapMetadata (schema : Schema) (name : String) :
    definitionId? (schema.mapMetadata f) name = definitionId? schema name := by
  simp only [definitionId?, Schema.mapMetadata, mapEntries_eq_mapValues, mapValues,
    List.findIdx?_map]
  rfl

theorem targetNullable_mapMetadata (schema : Schema) (name : String) :
    targetNullable (schema.mapMetadata f) name = targetNullable schema name := by
  simp only [targetNullable, Schema.mapMetadata, mapEntries_eq_mapValues, Keyed.lookup_mapValues]
  cases schema.definitions.lookup name with
  | none => rfl
  | some target =>
    simp only [Option.map_some, Node.isNameable_mapMetadata, Node.nullable_mapMetadata]

/-- Declarations that were made beside something else, all with their metadata changed. -/
def mapMade {α β : Type} (g : α → β) (made : α × List Declaration) : β × List Declaration :=
  (g made.1, made.2.map (Declaration.mapMetadata f))

mutual
theorem useOf_mapMetadata (schema : Schema) (owner next : Nat) (path : List String)
    (here : Pointer) (node : Node) :
    useOf (schema.mapMetadata f) owner next path here (node.mapMetadata f) =
      mapMade f (TypeUse.mapMetadata f) (useOf schema owner next path here node) := by
  obtain ⟨form, nullable, metadata⟩ := node
  have shaped := shapeOf?_mapMetadata schema next (next + 1) path here form metadata
  rw [Node.mapMetadata, useOf.eq_def (schema.mapMetadata f), useOf.eq_def schema]
  simp only [shaped]
  cases found : shapeOf? schema next (next + 1) path here form metadata with
  | some result => rfl
  | none =>
    cases form with
    | type primitive => simp only [Option.map_none, Form.mapMetadata]; rfl
    | ref name =>
      simp only [Option.map_none, Form.mapMetadata, definitionId?_mapMetadata,
        targetNullable_mapMetadata]
      cases definitionId? schema name <;> rfl
    | elements item =>
      simp only [Option.map_none, Form.mapMetadata,
        useOf_mapMetadata schema owner next path (here.child "elements") item]
      rfl
    | values item =>
      simp only [Option.map_none, Form.mapMetadata,
        useOf_mapMetadata schema owner next path (here.child "values") item]
      rfl
    | _ => simp only [Option.map_none, Form.mapMetadata]; rfl
termination_by node.size
decreasing_by all_goals simp only [Node.size, Form.size]; omega

theorem shapeOf?_mapMetadata (schema : Schema) (id next : Nat) (path : List String)
    (here : Pointer) (form : Form) (metadata : Metadata) :
    shapeOf? (schema.mapMetadata f) id next path here (form.mapMetadata f) (f metadata) =
      (shapeOf? schema id next path here form metadata).map
        (mapMade f (Shape.mapMetadata f metadata)) := by
  rw [shapeOf?.eq_def (schema.mapMetadata f), shapeOf?.eq_def schema]
  cases form with
  | enum values =>
    simp only [Form.mapMetadata, Option.map_some, mapMade, Shape.mapMetadata, List.map_map]
    rfl
  | properties required optional additional =>
    simp only [Form.mapMetadata, mapEntries_eq_mapValues, merge_mapMetadata,
      membersOf_mapMetadata schema id next path here (merge required optional)]
    rfl
  | discriminator tag mapping =>
    simp only [Form.mapMetadata, mapEntries_eq_mapValues,
      variantsOf_mapMetadata schema id next path here mapping]
    rfl
  | _ => simp only [Form.mapMetadata]; rfl
termination_by form.size
decreasing_by all_goals simp only [Form.size, propertiesSize_merge]; omega

theorem membersOf_mapMetadata (schema : Schema) (owner next : Nat) (path : List String)
    (here : Pointer) (properties : List Property) :
    membersOf (schema.mapMetadata f) owner next path here
        (properties.map (Property.mapMetadata f)) =
      mapMade f (List.map (Member.mapMetadata f))
        (membersOf schema owner next path here properties) := by
  cases properties with
  | nil =>
    rw [List.map_nil, membersOf, membersOf]
    rfl
  | cons p rest =>
    have first : useOf (schema.mapMetadata f) owner next (path ++ [(p.mapMetadata f).name])
        (here.descend [(p.mapMetadata f).keyword, (p.mapMetadata f).name]) (p.mapMetadata f).node =
        mapMade f (TypeUse.mapMetadata f) (useOf schema owner next (path ++ [p.name])
          (here.descend [p.keyword, p.name]) p.node) :=
      useOf_mapMetadata schema owner next _ _ p.node
    have later (next : Nat) := membersOf_mapMetadata schema owner next path here rest
    rw [List.map_cons, membersOf, membersOf]
    simp only [first, mapMade, List.length_map, later, List.map_append, List.map_cons]
    rfl
termination_by propertiesSize properties
decreasing_by all_goals simp only [propertiesSize]; omega

theorem variantsOf_mapMetadata (schema : Schema) (parent next : Nat) (path : List String)
    (here : Pointer) (entries : List (String × Node)) :
    variantsOf (schema.mapMetadata f) parent next path here
        (mapValues (Node.mapMetadata f) entries) =
      mapMade f id (variantsOf schema parent next path here entries) := by
  match entries with
  | [] =>
    rw [Keyed.mapValues_nil, variantsOf, variantsOf]
    rfl
  | (tagValue, .mk (.properties required optional additional) _ metadata) :: rest =>
    have members := membersOf_mapMetadata schema next (next + 1) (path ++ [tagValue])
      (here.descend ["mapping", tagValue]) (merge required optional)
    have later (next : Nat) := variantsOf_mapMetadata schema parent next path here rest
    rw [Keyed.mapValues_cons, Node.mapMetadata, Form.mapMetadata, variantsOf, variantsOf]
    simp only [mapEntries_eq_mapValues, merge_mapMetadata, members, mapMade, List.length_map, later,
      id, List.map_append, List.map_cons]
    rfl
  | (_, .mk .empty _ _) :: rest | (_, .mk (.ref _) _ _) :: rest | (_, .mk (.type _) _ _) :: rest
  | (_, .mk (.enum _) _ _) :: rest | (_, .mk (.elements _) _ _) :: rest
  | (_, .mk (.values _) _ _) :: rest | (_, .mk (.discriminator _ _) _ _) :: rest =>
    rw [Keyed.mapValues_cons, Node.mapMetadata, Form.mapMetadata, variantsOf, variantsOf]
    · exact variantsOf_mapMetadata schema parent next path here rest
    · simp
    · simp
termination_by entriesSize entries
decreasing_by
  all_goals simp only [entriesSize, Node.size, Form.size, propertiesSize_merge]; omega
end

theorem topLevel_mapMetadata (schema : Schema) (id next : Nat) (name : String) (here : Pointer)
    (node : Node) :
    topLevel (schema.mapMetadata f) id next name here (node.mapMetadata f) =
      mapMade f (Declaration.mapMetadata f) (topLevel schema id next name here node) := by
  simp only [topLevel, Node.form_mapMetadata, Node.metadata_mapMetadata,
    Node.nullable_mapMetadata, shapeOf?_mapMetadata, useOf_mapMetadata]
  cases shapeOf? schema id next [name] here node.form node.metadata <;> rfl

theorem topLevels_mapMetadata (schema : Schema) (id next : Nat)
    (entries : List (String × Pointer × Node)) :
    topLevels (schema.mapMetadata f) id next
        (entries.map fun entry => (entry.1, entry.2.1, entry.2.2.mapMetadata f)) =
      mapMade f (List.map (Declaration.mapMetadata f)) (topLevels schema id next entries) := by
  induction entries generalizing id next with
  | nil => rfl
  | cons entry rest ih =>
    obtain ⟨name, here, node⟩ := entry
    simp only [List.map_cons, topLevels, topLevel_mapMetadata, mapMade, List.length_map, ih,
      List.map_append]

theorem topEntries_mapMetadata (schema : Schema) (rootName : String) :
    topEntries (schema.mapMetadata f) rootName =
      (topEntries schema rootName).map
        (fun entry => (entry.1, entry.2.1, entry.2.2.mapMetadata f)) := by
  simp [topEntries, Schema.mapMetadata, mapEntries_eq_mapValues, mapValues]

/-- The catalog of a schema with other metadata has that metadata, and is the same otherwise. -/
theorem ofSchema_mapMetadata (schema : Schema) (rootName : String) :
    ofSchema (schema.mapMetadata f) rootName = (ofSchema schema rootName).mapMetadata f := by
  have count : (schema.mapMetadata f).definitions.length = schema.definitions.length := by
    simp [Schema.mapMetadata, mapEntries_eq_mapValues, mapValues]
  have names : Keyed.keys (schema.mapMetadata f).definitions = Keyed.keys schema.definitions := by
    simp [Schema.mapMetadata, mapEntries_eq_mapValues]
  simp only [ofSchema_eq, topEntries_mapMetadata, count, names, topLevels_mapMetadata, mapMade,
    Catalog.mapMetadata, List.map_append]

end Making

end Catalog

end SchemaBindings
