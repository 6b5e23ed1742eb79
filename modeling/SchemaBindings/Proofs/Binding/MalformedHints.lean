import SchemaBindings.Proofs.Binding.Overrides
import SchemaBindings.Proofs.Binding.Spelling

/-! Hints that cannot be used: what is no text, and a container where there is nothing to hold.
Rendering fails at one that is read. Hints are read where the type of their node is used, and where a
union or a reference asks for the text of a declaration; elsewhere at the top they are passed over. -/

namespace SchemaBindings

open Catalog (Describes Exposed HasStep HasUse Linked Located Means Mirrors Suppressed declaredPlaces
  definitionPlace)
open Schema (Regular)

def Form.hasItems : Form → Bool
  | .elements _ => true
  | .values _ => true
  | _ => false

/-- The hint is there, and is no text. -/
def Metadata.NotText (metadata : Metadata) (key : String) : Prop :=
  ∃ value, metadata.hint? key = some value ∧ ∀ text, value ≠ .string text

theorem Catalog.Means.hasItems_kind {schema : Schema} {all : List Catalog.Place} {first : Nat}
    {place : Catalog.Place} {use : TypeUse} (means : Means schema all first place use) :
    use.kind.hasItems = place.node.form.hasItems := by
  cases means with
  | declared nameable =>
    unfold Node.isNameable at nameable
    cases form : place.node.form with
    | elements => simp [form] at nameable
    | values => simp [form] at nameable
    | _ => rfl
  | anything form => rw [form]; rfl
  | primitive form => rw [form]; rfl
  | reference form => rw [form]; rfl
  | elements form => rw [form]; rfl
  | values form => rw [form]; rfl

namespace Binding

/-- The container hint is no text, or stands without a type hint where there are no items to hold. -/
inductive BadContainer (keys : HintKeys) (node : Node) : Prop
  | notText {key : String} (named : keys.container = some key)
      (hint : node.metadata.NotText key)
  | noItems {key : String} (named : keys.container = some key)
      (hint : (node.metadata.hint? key).isSome)
      (untyped : node.metadata.hint? keys.type = none) (form : node.form.hasItems = false)

/-- A type hint is read below the top. At the top it is read for a reference to its definition, if no
hint replaces the reference. -/
inductive ReadsType (schema : Schema) (rootName key : String) (place : Catalog.Place) : Prop
  | below (step : place.step ≠ none)
  | referenced {name : String} {node : Node} {user : Catalog.Place}
      (entry : (name, node) ∈ schema.definitions) (same : place = definitionPlace (name, node))
      (exposed : Exposed schema rootName key user) (form : user.node.form = .ref name)
      (untyped : user.node.metadata.hint? key = none)

/-- A container hint is read where the type of its node is used, if no type hint is there. -/
structure ReadsContainer (key : String) (place : Catalog.Place) : Prop where
  use : HasUse place
  untyped : place.node.metadata.hint? key = none

section Reading

variable {keys : HintKeys} {c : NamedCatalog}

theorem not_notText_of_string? {key : String} {metadata : Metadata} {here : Pointer}
    {hint : Option String} (read : keys.string? key metadata here = .ok hint) :
    ¬ metadata.NotText key := by
  rintro ⟨value, found, noText⟩
  rw [HintKeys.string?, found] at read
  cases value with
  | string text => exact noText text rfl
  | _ => cases read

theorem not_badContainer_of_container? {node : Node} {here : Pointer} {container : Option String}
    (read : keys.container? node.form.hasItems node.metadata here = .ok container) :
    ¬ BadContainer keys node := by
  intro bad
  cases bad with
  | notText named notText =>
    simp only [HintKeys.container?, named] at read
    split at read
    · cases read
    · exact not_notText_of_string? ‹_› notText
    · exact not_notText_of_string? ‹_› notText
  | @noItems key named hint _ form =>
    simp only [HintKeys.container?, named, form] at read
    split at read
    · cases read
    · rename_i absent
      unfold HintKeys.string? at absent
      split at absent
      · rename_i none
        rw [none] at hint
        cases hint
      · cases absent
      · cases absent
    · cases read

theorem not_notText_of_reference {id : Nat} {reference : Reference} {d : Declaration}
    (known : c.reference keys id = .ok reference) (declared : c.catalog.declaration? id = some d) :
    ¬ d.metadata.NotText keys.type := by
  simp only [NamedCatalog.reference, declared] at known
  obtain ⟨hint, read, -⟩ := (bind_eq_ok ..).1 known
  exact not_notText_of_string? read

/-- What is read of a use whose type is known. With a type hint that is all. -/
structure UseRead (keys : HintKeys) (c : NamedCatalog) (use : TypeUse) : Prop where
  type : ∃ hint, keys.type? use.metadata use.pointer = .ok hint
  container : use.metadata.hint? keys.type = none →
    ∃ container, keys.container? use.kind.hasItems use.metadata use.pointer = .ok container
  item : use.metadata.hint? keys.type = none →
    ∀ item, use.kind = .elements item ∨ use.kind = .values item →
      ∃ type, TypeExpr.ofUse keys c item = .ok type
  reference : use.metadata.hint? keys.type = none → ∀ id, use.kind = .declared id →
    ∃ reference, c.reference keys id = .ok reference

theorem useRead_of_ofUse {use : TypeUse} {type : TypeExpr}
    (read : TypeExpr.ofUse keys c use = .ok type) : UseRead keys c use := by
  cases typeOf_of_ofUse read with
  | verbatim hint =>
    have typed : use.metadata.hint? keys.type ≠ none := by
      rw [hint]
      exact Option.some_ne_none _
    exact ⟨⟨_, string?_eq_some.2 hint⟩, (absurd · typed), (absurd · typed), (absurd · typed)⟩
  | built untyped held built =>
    constructor
    case type => exact ⟨none, string?_eq_none.2 untyped⟩
    case container => exact fun _ => ⟨_, held⟩
    case item =>
      rintro - item (same | same)
      · cases built with
        | elements kind itemRead =>
          cases kind.symm.trans same
          exact ⟨_, itemRead⟩
        | _ kind => cases kind.symm.trans same
      · cases built with
        | values kind itemRead =>
          cases kind.symm.trans same
          exact ⟨_, itemRead⟩
        | _ kind => cases kind.symm.trans same
    case reference =>
      rintro - id same
      cases built with
      | declared kind known =>
        cases kind.symm.trans same
        exact ⟨_, known⟩
      | _ kind => cases kind.symm.trans same

/-- What is read of a shape when its declaration is drafted. -/
structure ShapeRead (keys : HintKeys) (c : NamedCatalog) (shape : Shape) : Prop where
  uses : ∀ use ∈ shape.uses, UseRead keys c use
  variants : ∀ tag variants, shape = .union tag variants → ∀ v ∈ variants,
    (Naming.tagValue? c.catalog v).isSome → ∃ reference, c.reference keys v = .ok reference

theorem shapeRead_of_bodyOf {ε μ : Type} {rules : Rules ε μ} {names : Naming.Names} {shape : Shape}
    {body : Body μ} (bodyOf : BodyOf rules c names shape body)
    (fits : Catalog.Fits names shape) : ShapeRead rules.keys c shape := by
  have ofMembers {members : List Member} {fields : List (Field μ)}
      (count : names.members.length = members.length)
      (read : rules.fields c (members.zip names.members) = .ok fields) :
      ∀ use ∈ members.map Member.type, UseRead rules.keys c use := by
    intro use used
    obtain ⟨m, listed, rfl⟩ := List.mem_map.1 used
    obtain ⟨_, f, fieldOf⟩ := exists_fieldOf count read listed
    exact useRead_of_ofUse fieldOf.type
  cases bodyOf with
  | record read => exact ⟨ofMembers fits read, nofun⟩
  | enumeration => exact ⟨nofun, nofun⟩
  | @union tag variants cases' read =>
    refine ⟨nofun, ?_⟩
    rintro _ _ ⟨⟩ v listed isVariant
    obtain ⟨memberCount, constantCount⟩ := fits
    have count : variants.length = (names.members.zip names.constants).length := by
      rw [List.length_zip, memberCount, constantCount, Nat.min_self]
    rw [← List.map_fst_zip (Nat.le_of_eq count)] at listed
    obtain ⟨entry, paired, rfl⟩ := List.mem_map.1 listed
    have kept := List.mem_filter (p := fun entry : Nat × String × String =>
      (Naming.tagValue? c.catalog entry.1).isSome).2 ⟨paired, isVariant⟩
    obtain ⟨i, found⟩ := List.mem_iff_getElem?.1 kept
    obtain ⟨k, -, caseOf⟩ := Catalog.getElem?_of_forall₂ (forall₂_of_cases read) found
    exact ⟨k.reference, caseOf.reference⟩
  | variant _ read => exact ⟨ofMembers fits read, nofun⟩
  | wrapper read =>
    refine ⟨fun use used => ?_, nofun⟩
    obtain rfl := List.mem_singleton.1 used
    exact useRead_of_ofUse read

end Reading

section Places

variable {schema : Schema} {rootName : String} {catalog : Catalog} {keys : HintKeys}
  {names : List Naming.Names}

theorem shapeRead_of_drafts {ε μ : Type} {rules : Rules ε μ} {convention : Naming.Convention}
    (mirrors : Mirrors schema rootName catalog) (linked : Linked catalog)
    {drafts : List (Draft ε μ)}
    (read : rules.drafts (.ofCatalog convention catalog) = .ok drafts) {d : Declaration}
    (inside : d ∈ catalog.declarations) (left : ¬ Suppressed rules.keys.type catalog d.id) :
    ShapeRead rules.keys (.ofCatalog convention catalog) d.shape := by
  have declared := linked.declaration?_id inside
  obtain ⟨own, named, listed⟩ := exists_written_of_left mirrors linked
    (Naming.length_resolve convention catalog) declared left
  obtain ⟨i, found⟩ := List.mem_iff_getElem?.1 listed
  obtain ⟨draft, -, drafted⟩ := Catalog.getElem?_of_forall₂ (forall₂_of_drafts read) found
  exact shapeRead_of_bodyOf (bodyOf_of_body (draft_eq_ok drafted).2.2)
    (Catalog.fits_resolve linked convention declared named)

/-- A use for a place of which everything is read that rendering needs. -/
def PlaceRead (schema : Schema) (rootName : String) (keys : HintKeys) (c : NamedCatalog)
    (place : Catalog.Place) : Prop :=
  ∃ first use, Means schema (declaredPlaces schema rootName) first place use ∧ UseRead keys c use

variable (mirrors : Mirrors schema rootName catalog) (regular : Regular schema)
  (linked : Linked catalog)
  (reads : ∀ d ∈ catalog.declarations, ¬ Suppressed keys.type catalog d.id →
    ShapeRead keys ⟨catalog, names⟩ d.shape)

include mirrors regular linked reads

/-- A declaration at whose place no hint stands, nor around it, is read. -/
theorem shapeRead_of_exposed {id : Nat} {place : Catalog.Place}
    (exposed : Exposed schema rootName keys.type place)
    (untyped : place.node.metadata.hint? keys.type = none)
    (found : (declaredPlaces schema rootName)[id]? = some place) :
    ∃ d, Describes schema (declaredPlaces schema rootName) place d ∧
      ShapeRead keys ⟨catalog, names⟩ d.shape := by
  obtain ⟨d, declared, describes⟩ := mirrors.declaration_at found
  obtain rfl := linked.ids id d declared
  have left : ¬ Suppressed keys.type catalog d.id :=
    (not_suppressed_iff_uncovered mirrors regular linked found).2 fun _ located encloses _ =>
      exposed.hint?_eq_none regular untyped located encloses
  exact ⟨d, describes, reads d (List.mem_of_getElem? declared) left⟩

theorem placeRead_of_top {id : Nat} {place : Catalog.Place}
    (exposed : Exposed schema rootName keys.type place)
    (untyped : place.node.metadata.hint? keys.type = none)
    (found : (declaredPlaces schema rootName)[id]? = some place) (top : place.step = none)
    (plain : place.node.isNameable = false) :
    PlaceRead schema rootName keys ⟨catalog, names⟩ place := by
  obtain ⟨d, describes, shapeRead⟩ :=
    shapeRead_of_exposed mirrors regular linked reads exposed untyped found
  obtain ⟨inner, shape, means⟩ := describes.shape.wrapper_of_plain top plain
  exact ⟨_, inner, means, shapeRead.uses inner (by rw [shape]; exact List.mem_cons_self)⟩

theorem placeRead_of_member {place : Catalog.Place}
    (exposed : Exposed schema rootName keys.type place)
    (untyped : place.node.metadata.hint? keys.type = none) {name : String} {required : Bool}
    {node : Node} (leads : HasStep place.node (.property name required) node) :
    PlaceRead schema rootName keys ⟨catalog, names⟩ (place.down (.property name required) node) := by
  have declared : place.isDeclared = true := by
    have nameable : place.node.isNameable = true := by
      cases leads with
      | required form => simp [Node.isNameable, form]
      | optional form => simp [Node.isNameable, form]
    unfold Catalog.Place.isDeclared
    split <;> simp [nameable]
  obtain ⟨id, found⟩ := Catalog.exists_getElem?_of_isDeclared exposed.located declared
  obtain ⟨d, describes, shapeRead⟩ :=
    shapeRead_of_exposed mirrors regular linked reads exposed untyped found
  obtain ⟨use, used, means⟩ := describes.shape.exists_member leads
  exact ⟨_, use, means, shapeRead.uses use used⟩

/-- The type of a node is read where no hint replaces it together with what is around it. -/
theorem placeRead_of_exposed {place : Catalog.Place}
    (exposed : Exposed schema rootName keys.type place) (used : HasUse place)
    (untyped : place.step = none → place.node.metadata.hint? keys.type = none) :
    PlaceRead schema rootName keys ⟨catalog, names⟩ place := by
  induction exposed with
  | root =>
    cases used with
    | wrapped top plain =>
      exact placeRead_of_top mirrors regular linked reads .root (untyped rfl)
        Catalog.getElem?_declaredPlaces_root top plain
    | _ step => cases step
  | definition member =>
    obtain ⟨i, found⟩ := List.mem_iff_getElem?.1 member
    cases used with
    | wrapped top plain =>
      exact placeRead_of_top mirrors regular linked reads (.definition member) (untyped rfl)
        (Catalog.getElem?_declaredPlaces_definition found) top plain
    | _ step => cases step
  | @down parent step node within above leads ih =>
    cases leads with
    | element form =>
      -- The list is read first, and as no hint stands at it, its item is too.
      have plain : parent.node.isNameable = false := by simp [Node.isNameable, form]
      obtain ⟨first, use, means, useRead⟩ :=
        ih (Catalog.hasUse_of_plain regular within.located plain) fun _ => above
      cases means with
      | @elements _ item inner own means =>
        cases form.symm.trans own
        obtain ⟨_, itemRead⟩ := useRead.item above inner (.inl rfl)
        exact ⟨first, inner, means, useRead_of_ofUse itemRead⟩
      | declared nameable => cases plain.symm.trans nameable
      | _ own => cases form.symm.trans own
    | value form =>
      have plain : parent.node.isNameable = false := by simp [Node.isNameable, form]
      obtain ⟨first, use, means, useRead⟩ :=
        ih (Catalog.hasUse_of_plain regular within.located plain) fun _ => above
      cases means with
      | @values _ item inner own means =>
        cases form.symm.trans own
        obtain ⟨_, itemRead⟩ := useRead.item above inner (.inr rfl)
        exact ⟨first, inner, means, useRead_of_ofUse itemRead⟩
      | declared nameable => cases plain.symm.trans nameable
      | _ own => cases form.symm.trans own
    | required form member =>
      exact placeRead_of_member mirrors regular linked reads within above (.required form member)
    | optional form member =>
      exact placeRead_of_member mirrors regular linked reads within above (.optional form member)
    | variant =>
      cases used with
      | wrapped top => cases top
      | _ step => cases step

theorem not_notText_of_hasUse {place : Catalog.Place}
    (exposed : Exposed schema rootName keys.type place) (below : place.step ≠ none)
    (used : HasUse place) : ¬ place.node.metadata.NotText keys.type := by
  obtain ⟨first, use, means, useRead⟩ :=
    placeRead_of_exposed mirrors regular linked reads exposed used fun top => absurd top below
  obtain ⟨hint, typeRead⟩ := useRead.type
  exact means.metadata_eq ▸ not_notText_of_string? typeRead

omit regular linked reads in
/-- What a reference is read for is described by a declaration with the metadata of its place. -/
theorem not_notText_at {id : Nat} {place : Catalog.Place} {reference : Reference}
    (found : (declaredPlaces schema rootName)[id]? = some place)
    (known : NamedCatalog.reference ⟨catalog, names⟩ keys id = .ok reference) :
    ¬ place.node.metadata.NotText keys.type := by
  obtain ⟨d, declared, describes⟩ := mirrors.declaration_at found
  exact describes.metadata ▸ not_notText_of_reference known declared

/-- A union whose declaration is read refers to each of its variants. -/
theorem not_notText_of_variant {union : Catalog.Place}
    (exposed : Exposed schema rootName keys.type union)
    (untyped : union.node.metadata.hint? keys.type = none) {tag : String}
    {mapping : List (String × Node)} (form : union.node.form = .discriminator tag mapping)
    {entry : String × Node} (member : entry ∈ mapping) :
    ¬ entry.2.metadata.NotText keys.type := by
  have declared : union.isDeclared = true := by
    unfold Catalog.Place.isDeclared
    split <;> simp [Node.isNameable, form]
  obtain ⟨id, found⟩ := Catalog.exists_getElem?_of_isDeclared exposed.located declared
  obtain ⟨d, describes, shapeRead⟩ :=
    shapeRead_of_exposed mirrors regular linked reads exposed untyped found
  obtain ⟨variants, shape, each⟩ := describes.shape.of_discriminator form
  obtain ⟨i, listed⟩ := List.mem_iff_getElem?.1 member
  obtain ⟨v, there, -, numbered⟩ := Catalog.getElem?_of_forall₂ each listed
  obtain ⟨reference, known⟩ := shapeRead.variants _ _ shape v (List.mem_of_getElem? there)
    (by rw [mirrors.tagValue?_of_place numbered]; rfl)
  exact not_notText_at mirrors numbered known

/-- A reference whose own type is read is read for its definition. -/
theorem not_notText_of_ref {user : Catalog.Place}
    (exposed : Exposed schema rootName keys.type user) {name : String}
    (form : user.node.form = .ref name) (untyped : user.node.metadata.hint? keys.type = none)
    {node : Node} (entry : (name, node) ∈ schema.definitions) :
    ¬ node.metadata.NotText keys.type := by
  have plain : user.node.isNameable = false := by simp [Node.isNameable, form]
  obtain ⟨first, use, means, useRead⟩ := placeRead_of_exposed mirrors regular linked reads exposed
    (Catalog.hasUse_of_plain regular exposed.located plain) fun _ => untyped
  cases means with
  | @reference _ _ id own target =>
    cases form.symm.trans own
    obtain ⟨reference, known⟩ := useRead.reference untyped id rfl
    obtain ⟨i, other, rfl, listed⟩ := Catalog.definitionId?_eq_some target
    have entry := (Keyed.lookup_eq_some_iff_mem regular.definitions).2 entry
    have there := (Keyed.lookup_eq_some_iff_mem regular.definitions).2 (List.mem_of_getElem? listed)
    cases entry.symm.trans there
    exact not_notText_at mirrors (Catalog.getElem?_declaredPlaces_definition listed) known
  | declared nameable => cases plain.symm.trans nameable
  | _ own => cases form.symm.trans own

/-- A type hint that is read is a text. -/
theorem not_notText_of_exposed {place : Catalog.Place}
    (exposed : Exposed schema rootName keys.type place)
    (consulted : ReadsType schema rootName keys.type place) :
    ¬ place.node.metadata.NotText keys.type := by
  cases consulted with
  | below step =>
    cases exposed with
    | root => exact absurd rfl step
    | definition => exact absurd rfl step
    | @down parent _ node within above leads =>
      have ofUse := not_notText_of_hasUse mirrors regular linked reads (.down within above leads) step
      cases leads with
      | element => exact ofUse (.element rfl)
      | value => exact ofUse (.value rfl)
      | required => exact ofUse (.member rfl)
      | optional => exact ofUse (.member rfl)
      | variant form member =>
        exact not_notText_of_variant mirrors regular linked reads within above form member
  | referenced entry same within form untyped =>
    rw [same]
    exact not_notText_of_ref mirrors regular linked reads within form untyped entry

theorem not_badContainer_of_exposed {place : Catalog.Place}
    (exposed : Exposed schema rootName keys.type place)
    (consulted : ReadsContainer keys.type place) : ¬ BadContainer keys place.node := by
  obtain ⟨first, use, means, useRead⟩ := placeRead_of_exposed mirrors regular linked reads exposed
    consulted.use fun _ => consulted.untyped
  obtain ⟨container, containerRead⟩ := useRead.container (means.metadata_eq ▸ consulted.untyped)
  rw [means.hasItems_kind, means.metadata_eq] at containerRead
  exact not_badContainer_of_container? containerRead

end Places

section Rendering

variable {document : Json} {schema : Schema} {rootName : String} {t : Target}

theorem shapeRead_of_render (read : Schema.ofJson document = .ok schema) {rendered : Rendered}
    (renders : t.render (Catalog.ofSchema schema rootName) = .ok rendered) :
    ∀ d ∈ (Catalog.ofSchema schema rootName).declarations,
      ¬ Suppressed (hintsOf t.language).type (Catalog.ofSchema schema rootName) d.id →
        ShapeRead (hintsOf t.language) (namedFor t.language schema rootName) d.shape := by
  have linked := Catalog.linked_ofSchema schema rootName
  have mirrors := Catalog.mirrors_ofSchema (Schema.regular_of_ofJson read) rootName
  obtain ⟨pieces, made, -⟩ := exists_pieces_of_render renders
  obtain ⟨language, package⟩ := t
  cases language <;>
    · obtain ⟨drafts, drafted, -⟩ := (bind_eq_ok ..).1 made
      exact fun d inside left => shapeRead_of_drafts mirrors linked drafted inside left

/-- A schema is not rendered when one of its hints that is read cannot be used, unless a type hint
around it replaces it. -/
theorem fails_of_malformed (read : Schema.ofJson document = .ok schema) (rootName : String)
    (t : Target) (place : Catalog.Place)
    (exposed : Exposed schema rootName (hintsOf t.language).type place)
    (malformed : place.node.metadata.NotText (hintsOf t.language).type ∧
        ReadsType schema rootName (hintsOf t.language).type place ∨
      BadContainer (hintsOf t.language) place.node ∧
        ReadsContainer (hintsOf t.language).type place) :
    ∃ fault, t.render (Catalog.ofSchema schema rootName) = .error fault := by
  cases outcome : t.render (Catalog.ofSchema schema rootName) with
  | error fault => exact ⟨fault, rfl⟩
  | ok rendered =>
    have regular := Schema.regular_of_ofJson read
    have linked := Catalog.linked_ofSchema schema rootName
    have mirrors := Catalog.mirrors_ofSchema regular rootName
    have reads := shapeRead_of_render read outcome
    rcases malformed with ⟨notText, consulted⟩ | ⟨bad, consulted⟩
    · exact absurd notText (not_notText_of_exposed mirrors regular linked reads exposed consulted)
    · exact absurd bad (not_badContainer_of_exposed mirrors regular linked reads exposed consulted)

end Rendering

/-- A record whose hint for Rust is a number. -/
def numberedRecord : Json :=
  .object [("metadata", .object [("rustType", .number (.whole 1))]), ("properties", .object [])]

def numberedNode : Node :=
  ⟨.properties [] [] false, false, ⟨none, [], [("rustType", .number (.whole 1))]⟩⟩

theorem readNode_numberedRecord (isRoot : Bool) (here : Pointer) :
    Schema.readNode [] isRoot here numberedRecord = .ok numberedNode := by
  refine (Schema.readNode_eq_ok ..).2 ⟨_, rfl, by cases isRoot <;> rfl, by rfl, by rfl,
    (Schema.readForm_eq_ok _).2 (.properties (by decide) (by decide) ?_ ?_ (by decide) (by rfl))⟩
  · exact (Schema.readNodes_eq_ok ..).2 (.inr ⟨_, _, rfl, rfl, (Schema.readEntries_eq_ok ..).2 .nil⟩)
  · exact (Schema.readNodes_eq_ok ..).2 (.inl ⟨by rfl, rfl⟩)

theorem notText_numberedNode : numberedNode.metadata.NotText "rustType" :=
  ⟨.number (.whole 1), rfl, nofun⟩

def numberedMember : Json := .object [("properties", .object [("a", numberedRecord)])]

def numberedMemberSchema : Schema :=
  ⟨⟨.properties [("a", numberedNode)] [] false, false, .empty⟩, []⟩

theorem ofJson_numberedMember : Schema.ofJson numberedMember = .ok numberedMemberSchema :=
  Schema.ofJson_of_readNode rfl (by rfl)
    (Schema.readNode_record true (.cons ⟨rfl, readNode_numberedRecord false _⟩ .nil))

theorem fails_numberedMember :
    Schema.ofJson numberedMember = .ok numberedMemberSchema ∧
      ∃ place, Exposed numberedMemberSchema "root" "rustType" place ∧
        place.node.metadata.NotText "rustType" ∧
        ReadsType numberedMemberSchema "root" "rustType" place ∧
        ∃ fault, Target.render ⟨.rust, ""⟩ (Catalog.ofSchema numberedMemberSchema "root") =
          .error fault := by
  have exposed : Exposed numberedMemberSchema "root" "rustType"
      ((Catalog.rootPlace numberedMemberSchema "root").down (.property "a" true) numberedNode) :=
    .down .root rfl (.required rfl List.mem_cons_self)
  exact ⟨ofJson_numberedMember, _, exposed, notText_numberedNode, .below nofun,
    fails_of_malformed ofJson_numberedMember "root" ⟨.rust, ""⟩ _ exposed
      (.inl ⟨notText_numberedNode, .below nofun⟩)⟩

/-- At the root such a hint is passed over, and the record with it. -/
theorem renders_numberedRecord :
    Schema.ofJson numberedRecord = .ok ⟨numberedNode, []⟩ ∧
      ¬ ∀ place, Exposed ⟨numberedNode, []⟩ "root" "rustType" place →
        place.node.metadata.NotText "rustType" ∨ BadContainer RustModule.hints place.node →
          ∃ fault, Target.render ⟨.rust, ""⟩ (Catalog.ofSchema ⟨numberedNode, []⟩ "root") =
            .error fault := by
  refine ⟨Schema.ofJson_of_readNode rfl (by rfl) (readNode_numberedRecord true .root), fun all => ?_⟩
  obtain ⟨fault, failed⟩ := all _ .root (.inl notText_numberedNode)
  have renderable : (Target.render ⟨.rust, ""⟩
      (Catalog.ofSchema ⟨numberedNode, []⟩ "root")).isOk = true := by decide +kernel
  rw [failed] at renderable
  cases renderable

end Binding

end SchemaBindings
