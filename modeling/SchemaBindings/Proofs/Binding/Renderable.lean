import SchemaBindings.Proofs.Binding.Recalling
import SchemaBindings.Proofs.Binding.UnsupportedPlaces

/-! Which schemas can be rendered. Without hints Go alone refuses any, for names that its struct
tags cannot hold. -/

namespace SchemaBindings

open Catalog (Linked Mirrors)
open Keyed (keys)
open Schema (Contains)

/-- The names that a node gives to the fields of its objects: its properties, or its tag. -/
def Form.fieldNames : Form → List String
  | .properties required optional _ => keys required ++ keys optional
  | .discriminator tag _ => [tag]
  | _ => []

def Shape.fieldNames : Shape → List String
  | .record members _ => members.map Member.wireName
  | .variant _ _ members _ => members.map Member.wireName
  | .union tag _ => [tag]
  | _ => []

theorem Shape.wireName_mem_fieldNames {shape : Shape} {m : Member} (listed : m ∈ shape.members) :
    m.wireName ∈ shape.fieldNames := by
  cases shape with
  | record => exact List.mem_map_of_mem listed
  | variant => exact List.mem_map_of_mem listed
  | _ => cases listed

namespace Catalog

variable {schema : Schema} {rootName : String} {catalog : Catalog} {all : List Place} {id : Nat}
  {place : Place} {shape : Shape} {name : String}

theorem mem_map_name_merge {required optional : List (String × Node)} :
    name ∈ (merge required optional).map Property.name ↔ name ∈ keys required ++ keys optional := by
  rw [List.mem_map, List.mem_append, Keyed.mem_keys, Keyed.mem_keys]
  constructor
  · rintro ⟨⟨name, isRequired, node⟩, member, rfl⟩
    have member := mem_merge.1 member
    cases isRequired with
    | true => exact .inl ⟨node, member⟩
    | false => exact .inr ⟨node, member⟩
  · rintro (⟨node, member⟩ | ⟨node, member⟩)
    · exact ⟨⟨name, true, node⟩, mem_merge.2 member, rfl⟩
    · exact ⟨⟨name, false, node⟩, mem_merge.2 member, rfl⟩

theorem ShapeFor.mem_fieldNames_iff (shaped : ShapeFor schema all id place shape) :
    name ∈ shape.fieldNames ↔ name ∈ place.node.form.fieldNames := by
  cases shaped with
  | enumeration form =>
    rw [form]
    rfl
  | record form each =>
    rw [form, Shape.fieldNames, map_eq_of_forall₂ (each.imp fun _ _ member => member.name)]
    exact mem_map_name_merge
  | union form =>
    rw [form]
    rfl

/-- A declaration has the names of the node that it stands for. -/
theorem Shaped.mem_fieldNames_iff (shaped : Shaped schema all id place shape) :
    name ∈ shape.fieldNames ↔ name ∈ place.node.form.fieldNames := by
  cases shaped with
  | own _ shaped => exact shaped.mem_fieldNames_iff
  | variant _ shaped => exact shaped.mem_fieldNames_iff
  | wrapper _ plain _ =>
    unfold Node.isNameable at plain
    cases form : place.node.form with
    | properties => simp [form] at plain
    | discriminator => simp [form] at plain
    | _ => rfl

theorem Mirrors.node_of_fieldName (mirrors : Mirrors schema rootName catalog) {d : Declaration}
    (inside : d ∈ catalog.declarations) (named : name ∈ d.shape.fieldNames) :
    ∃ node, Contains schema node ∧ name ∈ node.form.fieldNames := by
  obtain ⟨id, declared⟩ := List.mem_iff_getElem?.1 inside
  obtain ⟨place, numbered, describes⟩ := mirrors.place_at declared
  exact ⟨place.node, (located_of_getElem? numbered).contains, describes.shape.mem_fieldNames_iff.1 named⟩

theorem Mirrors.declaration_of_fieldName (mirrors : Mirrors schema rootName catalog) {node : Node}
    (within : Contains schema node) (named : name ∈ node.form.fieldNames) :
    ∃ d ∈ catalog.declarations, name ∈ d.shape.fieldNames := by
  obtain ⟨place, located, rfl⟩ := exists_located rootName within
  have needed : NeedsDeclaration place := by
    cases form : place.node.form with
    | properties => exact .properties form
    | discriminator => exact .discriminator form
    | _ =>
      rw [form] at named
      cases named
  obtain ⟨id, numbered⟩ := List.mem_iff_getElem?.1 (mem_declaredPlaces_iff.2 ⟨located, needed⟩)
  obtain ⟨d, declared, describes⟩ := mirrors.declaration_at numbered
  exact ⟨d, List.mem_of_getElem? declared, describes.shape.mem_fieldNames_iff.2 named⟩

end Catalog

namespace Binding

section Hints

variable {keys : HintKeys} {catalog : Catalog} {fault : Unsupported}

theorem Unhinted.not_hintFails (unhinted : Unhinted catalog) : ¬ HintFails keys catalog fault := by
  intro fails
  cases fails with
  | declared inside failed =>
    rw [HintKeys.type?, string?_eq_none.2 (unhinted.declarations _ inside _)] at failed
    cases failed
  | type used failed =>
    rw [HintKeys.type?, string?_eq_none.2 (unhinted.uses _ used _)] at failed
    cases failed
  | container used failed =>
    unfold HintKeys.container? at failed
    split at failed
    · cases failed
    · rw [string?_eq_none.2 (unhinted.uses _ used _)] at failed
      cases failed

/-- Without hints drafts fail at nothing but what a language refuses. -/
theorem Unhinted.refuses {ε μ : Type} {rules : Rules ε μ} {c : NamedCatalog}
    (unhinted : Unhinted c.catalog) (failed : rules.drafts c = .error fault) :
    rules.Refuses c fault :=
  (fails_of_drafts failed).resolve_left unhinted.not_hintFails

theorem Unhinted.not_refuses_rust {c : NamedCatalog} (unhinted : Unhinted c.catalog) :
    ¬ RustModule.rules.Refuses c fault := by
  intro refuses
  obtain ⟨d, inside, fails⟩ := RustModule.exists_of_refuses refuses
  rw [string?_eq_none.2 (unhinted.declarations d inside _)] at fails
  rcases fails with failed | ⟨text, entry, read, -⟩
  · cases failed
  · cases read

end Hints

section Languages

variable {catalog : Catalog} (linked : Linked catalog) {fault : Unsupported}

include linked

/-- A variant has its union, and with it a tag. -/
theorem not_refuses_typescript {convention : Naming.Convention} :
    ¬ TypeScriptModule.rules.Refuses (.ofCatalog convention catalog) fault := by
  intro refuses
  obtain ⟨d, inside, parent, variant, untagged, -⟩ := TypeScriptModule.exists_of_refuses refuses
  obtain ⟨_, known, tag, variants, rfl⟩ := linked.parents d inside parent variant
  rw [NamedCatalog.ofCatalog, Naming.tag?, known] at untagged
  cases untagged

/-- Without hints Go refuses names alone. A union has a tag member, and the name of a variant can be
embedded. -/
theorem GoPackage.fieldName_of_refuses (unhinted : Unhinted catalog)
    (refuses : rules.Refuses (.ofCatalog naming catalog) fault) :
    ∃ d ∈ catalog.declarations, ∃ name ∈ d.shape.fieldNames, isTagName name = false ∧
      fault.language = .go ∧ fault.construct = .notTagName name := by
  cases refuses with
  | @declaration id d names declared named failed =>
    have declared : catalog.declaration? id = some d := declared
    have inside := List.mem_of_getElem? declared
    obtain ⟨tag, variants, shape, fails⟩ := tagFieldFails failed
    cases fails with
    | noMember none =>
      have known : catalog.shape? id = some d.shape := by
        rw [Catalog.shape?, declared, Option.map_some]
      obtain ⟨-, -, -, member, tagMember, -⟩ :=
        (Naming.distinctIn_resolve naming catalog linked known named).union tag variants shape
      cases none.symm.trans tagMember
    | hint failed =>
      rw [string?_eq_none.2 (unhinted.declarations d inside _)] at failed
      cases failed
    | tagName failed =>
      obtain ⟨invalid, rfl⟩ := tagName_eq_error.1 failed
      refine ⟨d, inside, tag, ?_, invalid, rfl, rfl⟩
      rw [shape]
      exact List.mem_singleton.2 rfl
  | member inside listed failed =>
    obtain ⟨invalid, rfl⟩ := tagName_eq_error.1 failed
    exact ⟨_, inside, _, Shape.wireName_mem_fieldNames listed, invalid, rfl, rfl⟩
  | @variant id d reference declared known failed =>
    obtain ⟨fails, -⟩ := checkVariant_eq_error failed
    have carried := carries_of_checkVariant declared known fails
    rw [unhinted.declarations d (List.mem_of_getElem? declared)] at carried
    cases carried

end Languages

namespace GoPackage

theorem isTagName_of_tagName {name text : String} {here : Pointer}
    (read : tagName name here = .ok text) : isTagName name = true := by
  cases valid : isTagName name with
  | true => rfl
  | false => cases read.symm.trans (tagName_eq_error.2 ⟨valid, rfl⟩)

/-- Once drafts are made, every field name of the catalog can stand in a struct tag. -/
theorem isTagName_of_drafts {schema : Schema} {rootName : String} {catalog : Catalog}
    (mirrors : Mirrors schema rootName catalog) (linked : Linked catalog)
    (unhinted : Unhinted catalog) {drafts : List (Draft (Option TagField) String)}
    (read : rules.drafts (.ofCatalog naming catalog) = .ok drafts) {d : Declaration}
    (inside : d ∈ catalog.declarations) {name : String} (listed : name ∈ d.shape.fieldNames) :
    isTagName name = true := by
  obtain ⟨place, numbered, -⟩ := mirrors.place_of_mem linked inside
  obtain ⟨_, names, draft, draftAt⟩ := exists_draftAt mirrors linked unhinted read numbered
  cases (linked.declaration?_id inside).symm.trans draftAt.declared
  have bodyOf := draftAt.bodyOf
  have fits := draftAt.fits linked
  have ofMembers {members : List Member} {fields : List (Field String)}
      (count : names.members.length = members.length)
      (read : rules.fields (.ofCatalog naming catalog) (members.zip names.members) = .ok fields)
      (listed : name ∈ members.map Member.wireName) : isTagName name = true := by
    obtain ⟨m, member, rfl⟩ := List.mem_map.1 listed
    obtain ⟨_, f, fieldOf⟩ := exists_fieldOf count read member
    exact isTagName_of_tagName fieldOf.extra
  generalize draft.body = body at bodyOf
  cases shape : d.shape with
  | record members additional =>
    rw [shape] at bodyOf fits listed
    cases bodyOf with
    | record read => exact ofMembers fits read listed
  | variant parent tagValue members additional =>
    rw [shape] at bodyOf fits listed
    cases bodyOf with
    | variant _ read => exact ofMembers fits read listed
  | union tag variants =>
    obtain ⟨t, -, -, -, here, tagged⟩ := exists_tagField
      (unhinted.declarations d inside _) shape (extra_of_draft draftAt.drafted)
    rw [shape] at listed
    obtain rfl := List.mem_singleton.1 listed
    exact isTagName_of_tagName tagged
  | _ =>
    rw [shape] at listed
    cases listed

end GoPackage

/-- What a target cannot render of a schema without hints is a name that Go refuses. -/
theorem fieldName_of_fault {schema : Schema} {rootName : String} {catalog : Catalog}
    (mirrors : Mirrors schema rootName catalog) (linked : Linked catalog)
    (unhinted : Unhinted catalog) {t : Target} {fault : Unsupported}
    (failed : t.render catalog = .error fault) :
    t.language = .go ∧ fault.language = .go ∧
      ∃ node, Contains schema node ∧ ∃ name ∈ node.form.fieldNames,
        GoPackage.isTagName name = false ∧ fault.construct = .notTagName name := by
  cases Target.draftsFail_of_render failed with
  | java _ failed => exact absurd (unhinted.refuses failed) JavaClasses.not_refuses
  | rust _ failed => exact absurd (unhinted.refuses failed) (Unhinted.not_refuses_rust unhinted)
  | typescript _ failed => exact absurd (unhinted.refuses failed) (not_refuses_typescript linked)
  | go language failed =>
    obtain ⟨d, inside, name, named, invalid, own, construct⟩ :=
      GoPackage.fieldName_of_refuses linked unhinted (unhinted.refuses failed)
    obtain ⟨node, within, listed⟩ := mirrors.node_of_fieldName inside named
    exact ⟨language, own, node, within, name, listed, invalid, construct⟩

/-- Without hints every language renders every schema, but for Go, which renders exactly those whose
field names can all stand in a struct tag. What Go cannot render is such a name. -/
theorem renders_iff_isTagName {document : Json} {schema : Schema}
    (read : Schema.ofJson document = .ok schema)
    (plain : ∀ node, Contains schema node → node.metadata.extensions = [])
    (rootName : String) (t : Target) :
    ((∃ rendered, t.render (Catalog.ofSchema schema rootName) = .ok rendered) ↔
      (t.language = .go → ∀ node, Contains schema node → ∀ name ∈ node.form.fieldNames,
        GoPackage.isTagName name = true)) ∧
    ∀ fault, t.render (Catalog.ofSchema schema rootName) = .error fault →
      t.language = .go ∧ fault.language = .go ∧
      ∃ node, Contains schema node ∧ ∃ name ∈ node.form.fieldNames,
        GoPackage.isTagName name = false ∧ fault.construct = .notTagName name := by
  have linked := Catalog.linked_ofSchema schema rootName
  have mirrors := Catalog.mirrors_ofSchema (Schema.regular_of_ofJson read) rootName
  have unhinted := unhinted_of_mirrors mirrors plain
  refine ⟨⟨?_, ?_⟩, fun fault => fieldName_of_fault mirrors linked unhinted⟩
  · -- Every name at a node is that of a declaration, and Go asks for it when it makes the draft.
    rintro ⟨rendered, renders⟩ go node within name listed
    obtain ⟨language, package⟩ := t
    obtain rfl : language = .go := go
    obtain ⟨drafts, drafted, -⟩ := (bind_eq_ok ..).1 (files_of_render renders)
    obtain ⟨d, inside, named⟩ := mirrors.declaration_of_fieldName within listed
    exact GoPackage.isTagName_of_drafts mirrors linked unhinted drafted inside named
  · intro valid
    cases outcome : t.render (Catalog.ofSchema schema rootName) with
    | ok rendered => exact ⟨rendered, rfl⟩
    | error fault =>
      obtain ⟨go, -, node, within, name, listed, invalid, -⟩ :=
        fieldName_of_fault mirrors linked unhinted outcome
      cases (valid go node within name listed).symm.trans invalid

/-- A property whose name cannot stand in a struct tag. -/
def commaField : Json :=
  .object [("properties", .object [("a,b", .object [("type", .string "string")])])]

def commaFieldSchema : Schema :=
  ⟨⟨.properties [("a,b", ⟨.type .string, false, .empty⟩)] [] false, false, .empty⟩, []⟩

theorem ofJson_commaField : Schema.ofJson commaField = .ok commaFieldSchema := by
  have rootRead : Schema.readNode [] true .root commaField = .ok commaFieldSchema.root :=
    Schema.readNode_record true (.cons ⟨rfl, Schema.readNode_primitive [] _ .string⟩ .nil)
  exact Schema.ofJson_of_readNode rfl (by rfl) rootRead

theorem contains_commaField {node : Node} (within : Contains commaFieldSchema node) :
    node = commaFieldSchema.root ∨ node = ⟨.type .string, false, .empty⟩ := by
  induction within with
  | root => exact .inl rfl
  | definition member => cases member
  | child _ below ih =>
    rcases ih with rfl | rfl
    · cases below with
      | required form member =>
        cases form
        cases List.mem_singleton.1 member
        exact .inr rfl
      | optional form member =>
        cases form
        cases member
      | _ form => cases form
    · cases below with
      | _ form => cases form

theorem renders_commaField :
    Schema.ofJson commaField = .ok commaFieldSchema ∧
      (∃ rendered, Target.render ⟨.typescript, ""⟩ (Catalog.ofSchema commaFieldSchema "note") =
        .ok rendered) ∧
      ∃ fault, Target.render ⟨.go, "notes"⟩ (Catalog.ofSchema commaFieldSchema "note") =
        .error fault ∧ fault.construct = .notTagName "a,b" := by
  have plain : ∀ node, Contains commaFieldSchema node → node.metadata.extensions = [] := by
    intro node within
    rcases contains_commaField within with rfl | rfl <;> rfl
  obtain ⟨typescript, -⟩ := renders_iff_isTagName ofJson_commaField plain "note" ⟨.typescript, ""⟩
  obtain ⟨go, faults⟩ := renders_iff_isTagName ofJson_commaField plain "note" ⟨.go, "notes"⟩
  refine ⟨ofJson_commaField, typescript.2 nofun, ?_⟩
  cases outcome : Target.render ⟨.go, "notes"⟩ (Catalog.ofSchema commaFieldSchema "note") with
  | ok rendered =>
    have valid := go.1 ⟨rendered, outcome⟩ rfl _ .root "a,b" List.mem_cons_self
    exact absurd valid (by decide +kernel)
  | error fault =>
    obtain ⟨-, -, node, within, name, listed, -, construct⟩ := faults fault outcome
    rcases contains_commaField within with rfl | rfl
    · have listed : name ∈ ["a,b"] := listed
      obtain rfl := List.mem_singleton.1 listed
      exact ⟨fault, rfl, construct⟩
    · cases listed

end Binding

end SchemaBindings
