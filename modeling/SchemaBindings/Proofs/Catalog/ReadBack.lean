import SchemaBindings.Proofs.Catalog.Consistent
import SchemaBindings.Proofs.Catalog.Uses

/-! A catalog holds all of its schema: the schema can be read back from it. Only the flag of a
reference comes back with that of its target, where a use takes the two for one. -/

namespace SchemaBindings

/-- The flag that a definition adds to the references to it. One that is only wrapped adds none. -/
def Schema.addedFlag (schema : Schema) (name : String) : Bool :=
  match schema.definitions.lookup name with
  | some (.mk (.properties _ _ _) nullable _) => nullable
  | some (.mk (.enum _) nullable _) => nullable
  | some (.mk (.discriminator _ _) nullable _) => nullable
  | _ => false

def Form.addedFlag (schema : Schema) : Form → Bool
  | .ref name => schema.addedFlag name
  | _ => false

mutual
/-- The node with the flag of each reference completed by that of its target. -/
def Node.normal (schema : Schema) : Node → Node
  | .mk form nullable metadata =>
    .mk (form.normal schema) (nullable || form.addedFlag schema) metadata

def Form.normal (schema : Schema) : Form → Form
  | .empty => .empty
  | .ref name => .ref name
  | .type primitive => .type primitive
  | .enum values => .enum values
  | .elements item => .elements (item.normal schema)
  | .values item => .values (item.normal schema)
  | .properties required optional additional =>
    .properties (normalEntries schema required) (normalEntries schema optional) additional
  | .discriminator tag mapping => .discriminator tag (normalEntries schema mapping)

def normalEntries (schema : Schema) : List (String × Node) → List (String × Node)
  | [] => []
  | (name, node) :: rest => (name, node.normal schema) :: normalEntries schema rest
end

def Schema.normal (schema : Schema) : Schema :=
  ⟨schema.root.normal schema, normalEntries schema schema.definitions⟩

namespace Catalog

open Keyed (keys)
open Naming (tagValue?)
open Schema (Regular)

/-- The node that a use stands for. A declaration with a name is referred to; the node of any other
is `known`. -/
def readUse? (catalog : Catalog) (known : List (Nat × Node)) : TypeUse → Option Node
  | .mk .anything nullable metadata _ => some ⟨.empty, nullable, metadata⟩
  | .mk (.primitive primitive) nullable metadata _ => some ⟨.type primitive, nullable, metadata⟩
  | .mk (.elements item) nullable metadata _ =>
    (readUse? catalog known item).map (fun node => ⟨.elements node, nullable, metadata⟩)
  | .mk (.values item) nullable metadata _ =>
    (readUse? catalog known item).map (fun node => ⟨.values node, nullable, metadata⟩)
  | .mk (.declared id) nullable metadata _ =>
    match catalog.named.find? (fun entry => entry.2 == id) with
    | some (name, _) => some ⟨.ref name, nullable, metadata⟩
    | none => known.lookup id

def readMember? (catalog : Catalog) (known : List (Nat × Node)) (m : Member) : Option Property :=
  (readUse? catalog known m.type).map (fun node => ⟨m.wireName, m.required, node⟩)

def readVariant? (catalog : Catalog) (known : List (Nat × Node)) (id : Nat) :
    Option (String × Node) := do
  return (← tagValue? catalog id, ← known.lookup id)

/-- The required or the optional ones of some properties. -/
def entriesOf (required : Bool) (properties : List Property) : List (String × Node) :=
  (properties.filter (fun p => p.required == required)).map (fun p => (p.name, p.node))

def readProperties? (catalog : Catalog) (known : List (Nat × Node)) (members : List Member)
    (additional : Bool) : Option Form :=
  (members.mapM (readMember? catalog known)).map (fun properties =>
    .properties (entriesOf true properties) (entriesOf false properties) additional)

def readForm? (catalog : Catalog) (known : List (Nat × Node)) : Shape → Option Form
  | .record members additional => readProperties? catalog known members additional
  | .variant _ _ members additional => readProperties? catalog known members additional
  | .enumeration values => some (.enum (values.map EnumValue.value))
  | .union tag variants =>
    (variants.mapM (readVariant? catalog known)).map (fun mapping => .discriminator tag mapping)
  | .wrapper _ => none

def readDeclaration? (catalog : Catalog) (known : List (Nat × Node)) (d : Declaration) :
    Option Node :=
  match d.shape with
  | .wrapper inner => readUse? catalog known inner
  | shape => (readForm? catalog known shape).map (fun form => ⟨form, d.nullable, d.metadata⟩)

/-- The nodes of some declarations by number. The last one is read first, for what is nested in a
declaration comes after it. -/
def readAll? (catalog : Catalog) : List Declaration → Option (List (Nat × Node))
  | [] => some []
  | d :: rest => do
    let known ← readAll? catalog rest
    let node ← readDeclaration? catalog known d
    return (d.id, node) :: known

def readNamed? (known : List (Nat × Node)) (entry : String × Nat) : Option (String × Node) :=
  (known.lookup entry.2).map (fun node => (entry.1, node))

/-- The schema that a catalog is made from. -/
def readBack? (catalog : Catalog) : Option Schema := do
  let known ← readAll? catalog catalog.declarations
  return ⟨← known.lookup 0, ← catalog.named.mapM (readNamed? known)⟩

section Normal

variable {schema : Schema}

theorem normal_eq (node : Node) :
    node.normal schema =
      ⟨node.form.normal schema, node.nullable || node.form.addedFlag schema, node.metadata⟩ := by
  obtain ⟨form, nullable, metadata⟩ := node
  rw [Node.normal]
  rfl

theorem normalEntries_eq_map (entries : List (String × Node)) :
    normalEntries schema entries = entries.map (fun e => (e.1, e.2.normal schema)) := by
  induction entries with
  | nil => rfl
  | cons e rest ih => rw [normalEntries, List.map_cons, ih]

theorem addedFlag_eq_targetNullable (name : String) :
    schema.addedFlag name = targetNullable schema name := by
  unfold Schema.addedFlag targetNullable
  cases schema.definitions.lookup name with
  | none => rfl
  | some target =>
    obtain ⟨form, nullable, metadata⟩ := target
    cases form <;> simp [Node.isNameable, Node.form, Node.nullable]

theorem entriesOf_merge (required optional : List (String × Node)) :
    entriesOf true (merge required optional) = required ∧
      entriesOf false (merge required optional) = optional := by
  unfold entriesOf
  fun_induction merge required optional with
  | case1 optional => simp [List.filter_map, Function.comp_def]
  | case2 required _ => simp [List.filter_map, Function.comp_def]
  | case3 r requiredNode rs o optionalNode os _ ih => simpa using ih
  | case4 r requiredNode rs o optionalNode os _ ih => simpa using ih

end Normal

theorem mapM_eq_some_of_forall₂ {α β γ : Type} {f : α → Option β} {g : γ → β} {xs : List α}
    {zs : List γ} (related : List.Forall₂ (fun z x => f x = some (g z)) zs xs) :
    xs.mapM f = some (zs.map g) := by
  induction related with
  | nil => rfl
  | cons first _ ih => simp [List.mapM_cons, first, ih]

/-- The nodes of all declared places from a number on are known. -/
def Knows (schema : Schema) (all : List Place) (first : Nat) (known : List (Nat × Node)) : Prop :=
  ∀ id place, first ≤ id → all[id]? = some place →
    known.lookup id = some (place.node.normal schema)

section Named

variable {schema : Schema} {catalog : Catalog}

theorem find?_zipIdx {α : Type} (xs : List α) (first i : Nat) :
    (xs.zipIdx first).find? (fun entry => entry.2 == first + i) =
      xs[i]?.map (fun x => (x, first + i)) := by
  induction xs generalizing first i with
  | nil => rfl
  | cons x rest ih =>
    rw [List.zipIdx_cons]
    cases i with
    | zero => simp
    | succ i =>
      have later : first + (i + 1) = first + 1 + i := by omega
      rw [later, List.find?_cons_of_neg (by simp; omega), ih, List.getElem?_cons_succ]

theorem find?_named (named : catalog.named = (keys schema.definitions).zipIdx 1) {name : String}
    {id : Nat} (found : definitionId? schema name = some id) :
    catalog.named.find? (fun entry => entry.2 == id) = some (name, id) := by
  obtain ⟨i, node, rfl, known⟩ := definitionId?_eq_some found
  rw [named, Nat.add_comm, find?_zipIdx, keys, List.getElem?_map, known]
  rfl

theorem find?_named_eq_none (named : catalog.named = (keys schema.definitions).zipIdx 1) {id : Nat}
    (nested : schema.definitions.length < id) :
    catalog.named.find? (fun entry => entry.2 == id) = none := by
  obtain ⟨i, rfl⟩ : ∃ i, id = 1 + i := ⟨id - 1, by omega⟩
  have outside : (keys schema.definitions).length ≤ i := by
    rw [keys, List.length_map]
    omega
  rw [named, find?_zipIdx, List.getElem?_eq_none outside, Option.map_none]

end Named

section Reading

variable {schema : Schema} {rootName : String} {catalog : Catalog} {known : List (Nat × Node)}
  {first : Nat}

theorem readUse?_eq (named : catalog.named = (keys schema.definitions).zipIdx 1)
    (knows : Knows schema (declaredPlaces schema rootName) first known) {place : Place}
    {use : TypeUse} (means : Means schema (declaredPlaces schema rootName) first place use)
    (typed : HasUse place) :
    readUse? catalog known use = some (place.node.normal schema) := by
  induction means with
  | anything form =>
    rw [normal_eq, form]
    simp [readUse?, Form.normal, Form.addedFlag]
  | primitive form =>
    rw [normal_eq, form]
    simp [readUse?, Form.normal, Form.addedFlag]
  | reference form found =>
    rw [normal_eq, form]
    simp [readUse?, find?_named named found, Form.normal, Form.addedFlag,
      addedFlag_eq_targetNullable]
  | elements form _ ih =>
    have inner := ih (.element rfl)
    rw [normal_eq, form]
    simp [readUse?, inner, Form.normal, Form.addedFlag, Place.down]
  | values form _ ih =>
    have inner := ih (.value rfl)
    rw [normal_eq, form]
    simp [readUse?, inner, Form.normal, Form.addedFlag, Place.down]
  | @declared place id nameable bound numbered =>
    have nested : schema.definitions.length < id := by
      refine Nat.lt_of_not_le fun top => ?_
      have step := step_eq_none_of_le top numbered
      cases typed with
      | wrapped _ plain => cases nameable.symm.trans plain
      | _ own => cases own.symm.trans step
    rw [readUse?, find?_named_eq_none named nested]
    exact knows id place bound numbered

theorem readProperties?_eq (named : catalog.named = (keys schema.definitions).zipIdx 1)
    {place : Place} {required optional : List (String × Node)} {additional : Bool}
    {members : List Member}
    (knows : Knows schema (declaredPlaces schema rootName) first known)
    (all_members : List.Forall₂ (MemberFor schema (declaredPlaces schema rootName) first place)
      (merge required optional) members) :
    readProperties? catalog known members additional =
      some (.properties (normalEntries schema required) (normalEntries schema optional)
        additional) := by
  have read : members.mapM (readMember? catalog known) = some ((merge required optional).map
      (fun p => ⟨p.name, p.required, p.node.normal schema⟩)) := by
    refine mapM_eq_some_of_forall₂ (all_members.imp fun p m memberFor => ?_)
    have use := readUse?_eq named knows memberFor.type (.member rfl)
    rw [readMember?, use, memberFor.name, memberFor.required]
    rfl
  have split (flag : Bool) : entriesOf flag ((merge required optional).map
      (fun p => ⟨p.name, p.required, p.node.normal schema⟩)) =
      normalEntries schema (entriesOf flag (merge required optional)) := by
    rw [normalEntries_eq_map]
    simp [entriesOf, List.filter_map, Function.comp_def]
  obtain ⟨inRequired, inOptional⟩ := entriesOf_merge required optional
  rw [readProperties?, read, Option.map_some, split, split, inRequired, inOptional]

theorem readVariants?_eq (mirrors : Mirrors schema rootName catalog) {id : Nat}
    (knows : Knows schema (declaredPlaces schema rootName) (id + 1) known) {place : Place}
    {mapping : List (String × Node)} {variants : List Nat}
    (all_variants : List.Forall₂ (fun entry v => id < v ∧ (declaredPlaces schema rootName)[v]? =
      some (place.down (.variant entry.1) entry.2)) mapping variants) :
    variants.mapM (readVariant? catalog known) = some (normalEntries schema mapping) := by
  rw [normalEntries_eq_map]
  refine mapM_eq_some_of_forall₂ (all_variants.imp fun entry v => ?_)
  rintro ⟨later, numbered⟩
  have node := knows v _ later numbered
  rw [readVariant?, mirrors.tagValue?_of_place numbered, node]
  rfl

theorem readForm?_eq (mirrors : Mirrors schema rootName catalog)
    (named : catalog.named = (keys schema.definitions).zipIdx 1) {id : Nat}
    (knows : Knows schema (declaredPlaces schema rootName) (id + 1) known) {place : Place}
    {shape : Shape} (shaped : ShapeFor schema (declaredPlaces schema rootName) id place shape) :
    readForm? catalog known shape = some (place.node.form.normal schema) := by
  cases shaped with
  | enumeration form => simp [readForm?, form, Form.normal, Function.comp_def]
  | record form all_members =>
    rw [readForm?, readProperties?_eq named knows all_members, form, Form.normal]
  | union form all_variants =>
    rw [readForm?, readVariants?_eq mirrors knows all_variants, form, Form.normal]
    rfl

theorem readDeclaration?_eq (mirrors : Mirrors schema rootName catalog)
    (named : catalog.named = (keys schema.definitions).zipIdx 1) {place : Place} {d : Declaration}
    (describes : Describes schema (declaredPlaces schema rootName) place d)
    (knows : Knows schema (declaredPlaces schema rootName) (d.id + 1) known) :
    readDeclaration? catalog known d = some (place.node.normal schema) := by
  -- A form that is declared by name is no reference, so that its flag stays as it is.
  have complete {shape : Shape}
      (shaped : ShapeFor schema (declaredPlaces schema rootName) d.id place shape) :
      (readForm? catalog known shape).map (fun form => ⟨form, d.nullable, d.metadata⟩) =
        some (place.node.normal schema) := by
    have plain : place.node.form.addedFlag schema = false := by
      cases shaped with
      | _ form => simp [form, Form.addedFlag]
    rw [readForm?_eq mirrors named knows shaped, normal_eq, plain, Bool.or_false,
      describes.nullable, describes.metadata]
    rfl
  have shaped := describes.shape
  unfold readDeclaration?
  cases shape : d.shape with
  | wrapper inner =>
    rw [shape] at shaped
    obtain ⟨top, plain, means⟩ := shaped.wrapper_inv
    exact readUse?_eq named knows means (.wrapped top plain)
  | variant parent tagValue members additional =>
    rw [shape] at shaped
    have own := complete shaped.variant_inv
    exact own
  | _ =>
    rw [shape] at shaped
    cases shaped with
    | own _ shaped => exact complete shaped

/-- Reading from the last declaration back to one, all nodes from there on are known. -/
theorem knows_readAll? (mirrors : Mirrors schema rootName catalog) (linked : Linked catalog)
    (named : catalog.named = (keys schema.definitions).zipIdx 1) {ds : List Declaration}
    (stands : StandsAt catalog.declarations first ds) (ends : catalog.size = first + ds.length) :
    ∃ known, readAll? catalog ds = some known ∧
      Knows schema (declaredPlaces schema rootName) first known := by
  induction ds generalizing first with
  | nil =>
    refine ⟨[], rfl, fun id place bound numbered => ?_⟩
    obtain ⟨d, declared, -⟩ := mirrors.declaration_at numbered
    have inside := lt_size_of_declaration? declared
    rw [ends, List.length_nil] at inside
    omega
  | cons d rest ih =>
    obtain ⟨declared, standsLater⟩ := stands
    have endsLater : catalog.size = first + 1 + rest.length := by
      rw [ends, List.length_cons]
      omega
    obtain ⟨known, read, knows⟩ := ih standsLater endsLater
    obtain rfl := linked.ids first d declared
    obtain ⟨place, numbered, describes⟩ := mirrors.place_at declared
    have own := readDeclaration?_eq mirrors named describes knows
    refine ⟨(d.id, place.node.normal schema) :: known, by simp [readAll?, read, own], ?_⟩
    intro id other bound found
    by_cases same : id = d.id
    · subst same
      cases numbered.symm.trans found
      exact List.lookup_cons_self
    · rw [List.lookup_cons, beq_false_of_ne same]
      exact knows id other (by omega) found

theorem mapM_readNamed? (knows : Knows schema (declaredPlaces schema rootName) 0 known) {i : Nat}
    {definitions : List (String × Node)} (stands : StandsAt schema.definitions i definitions) :
    ((keys definitions).zipIdx (i + 1)).mapM (readNamed? known) =
      some (normalEntries schema definitions) := by
  induction definitions generalizing i with
  | nil => rfl
  | cons definition rest ih =>
    obtain ⟨found, standsLater⟩ := stands
    have node := knows (i + 1) _ (Nat.zero_le _) (getElem?_declaredPlaces_definition found)
    have later := ih standsLater
    rw [keys] at later
    simp [keys, readNamed?, node, later, normalEntries, definitionPlace]

end Reading

theorem readBack_eq {schema : Schema} {rootName : String} {catalog : Catalog}
    (mirrors : Mirrors schema rootName catalog) (linked : Linked catalog)
    (named : catalog.named = (keys schema.definitions).zipIdx 1) :
    readBack? catalog = some schema.normal := by
  have stands := standsAt_length [] catalog.declarations
  obtain ⟨known, read, knows⟩ :=
    knows_readAll? mirrors linked named stands (by simp [size])
  have root := knows 0 _ (Nat.zero_le 0) getElem?_declaredPlaces_root
  have definitions : catalog.named.mapM (readNamed? known) =
      some (normalEntries schema schema.definitions) := by
    rw [named]
    exact mapM_readNamed? knows (standsAt_length [] schema.definitions)
  rw [readBack?, read]
  simp [root, definitions, Schema.normal, rootPlace]

/-- The schema can be read back from its catalog. So two schemas with the same catalog are the same,
up to what their references take over from their targets. -/
theorem readBack_ofSchema {document : Json} {schema : Schema}
    (read : Schema.ofJson document = .ok schema) (rootName : String) :
    readBack? (ofSchema schema rootName) = some schema.normal ∧
      ∀ other otherSchema, Schema.ofJson other = .ok otherSchema →
        ofSchema otherSchema rootName = ofSchema schema rootName →
        otherSchema.normal = schema.normal := by
  have back {document : Json} {schema : Schema} (read : Schema.ofJson document = .ok schema) :
      readBack? (ofSchema schema rootName) = some schema.normal :=
    readBack_eq (mirrors_ofSchema (Schema.regular_of_ofJson read) rootName)
      (linked_ofSchema schema rootName) rfl
  refine ⟨back read, fun other otherSchema otherRead same => ?_⟩
  have both := back otherRead
  rw [same, back read] at both
  exact (Option.some.inj both).symm

theorem readBack_drawing :
    ∃ schema, Schema.ofJson Schema.drawing = .ok schema ∧
      readBack? (ofSchema schema "drawing") = some schema.normal := by
  obtain ⟨schema, read⟩ := Schema.exists_ofJson_drawing
  exact ⟨schema, read, (readBack_ofSchema read "drawing").1⟩

end Catalog

end SchemaBindings
