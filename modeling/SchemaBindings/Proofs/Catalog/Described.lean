import Mathlib.Data.List.Forall2
import SchemaBindings.Proofs.Catalog.Links
import SchemaBindings.Proofs.Catalog.Places

/-! What a catalog tells of a schema. Its declarations describe the declared places one by one and
in their order, and each declaration that is not at the top is nested in another. -/

namespace SchemaBindings.Catalog

/-- What a use says of its place, when `all` are the declared places by number. A nameable node has
a number from `first` on. -/
inductive Means (schema : Schema) (all : List Place) (first : Nat) : Place → TypeUse → Prop
  | anything {place : Place} (form : place.node.form = .empty) :
      Means schema all first place
        ⟨.anything, place.node.nullable, place.node.metadata, place.pointer⟩
  | primitive {place : Place} {primitive : Primitive} (form : place.node.form = .type primitive) :
      Means schema all first place
        ⟨.primitive primitive, place.node.nullable, place.node.metadata, place.pointer⟩
  | reference {place : Place} {name : String} {id : Nat} (form : place.node.form = .ref name)
      (found : definitionId? schema name = some id) :
      Means schema all first place
        ⟨.declared id, place.node.nullable || targetNullable schema name, place.node.metadata,
          place.pointer⟩
  | elements {place : Place} {item : Node} {use : TypeUse}
      (form : place.node.form = .elements item)
      (inner : Means schema all first (place.down .element item) use) :
      Means schema all first place
        ⟨.elements use, place.node.nullable, place.node.metadata, place.pointer⟩
  | values {place : Place} {item : Node} {use : TypeUse} (form : place.node.form = .values item)
      (inner : Means schema all first (place.down .value item) use) :
      Means schema all first place
        ⟨.values use, place.node.nullable, place.node.metadata, place.pointer⟩
  | declared {place : Place} {id : Nat} (nameable : place.node.isNameable = true)
      (bound : first ≤ id) (numbered : all[id]? = some place) :
      Means schema all first place
        ⟨.declared id, place.node.nullable, place.node.metadata, place.pointer⟩

structure MemberFor (schema : Schema) (all : List Place) (first : Nat) (place : Place)
    (p : Property) (m : Member) : Prop where
  name : m.wireName = p.name
  required : m.required = p.required
  type : Means schema all first (place.down (.property p.name p.required) p.node) m.type

/-- The shape of a nameable node that is declared under a number. What belongs to it has greater
numbers. -/
inductive ShapeFor (schema : Schema) (all : List Place) (id : Nat) (place : Place) : Shape → Prop
  | enumeration {values : List String} (form : place.node.form = .enum values) :
      ShapeFor schema all id place
        (.enumeration (values.map (fun v => ⟨v, place.node.metadata.enumDescribed v⟩)))
  | record {required optional : List (String × Node)} {additional : Bool} {members : List Member}
      (form : place.node.form = .properties required optional additional)
      (all_members : List.Forall₂ (MemberFor schema all (id + 1) place) (merge required optional)
        members) :
      ShapeFor schema all id place (.record members additional)
  | union {tag : String} {mapping : List (String × Node)} {variants : List Nat}
      (form : place.node.form = .discriminator tag mapping)
      (all_variants : List.Forall₂ (fun entry v =>
        id < v ∧ all[v]? = some (place.down (.variant entry.1) entry.2)) mapping variants) :
      ShapeFor schema all id place (.union tag variants)

/-- The shape of any declaration. An entry of a mapping is shaped as a record, but knows its union;
a node at the top that is not nameable is wrapped. -/
inductive Shaped (schema : Schema) (all : List Place) (id : Nat) (place : Place) : Shape → Prop
  | own {shape : Shape} (plain : ∀ tagValue, place.step ≠ some (.variant tagValue))
      (shaped : ShapeFor schema all id place shape) : Shaped schema all id place shape
  | variant {parent : Nat} {tagValue : String} {members : List Member} {additional : Bool}
      (step : place.step = some (.variant tagValue))
      (shaped : ShapeFor schema all id place (.record members additional)) :
      Shaped schema all id place (.variant parent tagValue members additional)
  | wrapper {inner : TypeUse} (top : place.step = none) (plain : place.node.isNameable = false)
      (means : Means schema all (id + 1) place inner) : Shaped schema all id place (.wrapper inner)

/-- What a declaration says of its place. -/
structure Describes (schema : Schema) (all : List Place) (place : Place) (d : Declaration) :
    Prop where
  path : d.path = place.path
  pointer : d.pointer = place.pointer
  metadata : d.metadata = place.node.metadata
  nullable : d.nullable = place.node.nullable
  shape : Shaped schema all d.id place d.shape

/-- How a declaration hangs on the one with number `id`: on a member, as the item that is wrapped,
or as a variant. -/
inductive Hangs (id : Nat) (path : List String) (shape : Shape) (d : Declaration) : Prop
  | member {m : Member} (inside : m ∈ shape.members) (use : m.type.innermost? = some d.id)
      (own : d.path = path ++ [m.wireName]) (plain : ∀ parent, ¬ d.shape.IsVariantOf parent)
  | item {inner : TypeUse} (wrapper : shape = .wrapper inner)
      (use : inner.innermost? = some d.id) (own : d.path = path)
      (plain : ∀ parent, ¬ d.shape.IsVariantOf parent)
  | variant {tag : String} {variants : List Nat} {tagValue : String} {members : List Member}
      {additional : Bool} (union : shape = .union tag variants) (inside : d.id ∈ variants)
      (parent : d.shape = .variant id tagValue members additional)
      (own : d.path = path ++ [tagValue])

structure NestedIn (owner d : Declaration) : Prop where
  owned : d.owner = some owner.id
  later : owner.id < d.id
  hangs : Hangs owner.id owner.path owner.shape d

theorem not_variant_of_shapeFor {schema : Schema} {all : List Place} {id : Nat} {place : Place}
    {shape : Shape} (shaped : ShapeFor schema all id place shape) (parent : Nat) :
    ¬ shape.IsVariantOf parent := by
  rintro ⟨_, _, _, rfl⟩
  cases shaped

section Shapes

variable {schema : Schema} {all : List Place} {id : Nat} {place : Place} {shape : Shape}

theorem Shaped.variant_of_step (shaped : Shaped schema all id place shape) {tagValue : String}
    (step : place.step = some (.variant tagValue)) :
    ∃ parent members additional, shape = .variant parent tagValue members additional := by
  cases shaped with
  | own plain _ => exact (plain tagValue step).elim
  | variant other _ =>
    cases step.symm.trans other
    exact ⟨_, _, _, rfl⟩
  | wrapper top => cases step.symm.trans top

theorem Shaped.step_of_variant (shaped : Shaped schema all id place shape) {parent : Nat}
    (variant : shape.IsVariantOf parent) : ∃ tagValue, place.step = some (.variant tagValue) := by
  cases shaped with
  | own _ shaped => exact (not_variant_of_shapeFor shaped parent variant).elim
  | variant step _ => exact ⟨_, step⟩
  | wrapper =>
    obtain ⟨_, _, _, same⟩ := variant
    cases same

theorem Shaped.variant_inv {parent : Nat} {tagValue : String} {members : List Member}
    {additional : Bool}
    (shaped : Shaped schema all id place (.variant parent tagValue members additional)) :
    ShapeFor schema all id place (.record members additional) := by
  cases shaped with
  | own _ shaped => cases shaped
  | variant _ shaped => exact shaped

theorem Shaped.wrapper_inv {inner : TypeUse} (shaped : Shaped schema all id place (.wrapper inner)) :
    place.step = none ∧ place.node.isNameable = false ∧ Means schema all (id + 1) place inner := by
  cases shaped with
  | own _ shaped => cases shaped
  | wrapper top plain means => exact ⟨top, plain, means⟩

theorem Shaped.wrapper_of_plain (shaped : Shaped schema all id place shape)
    (top : place.step = none) (plain : place.node.isNameable = false) :
    ∃ inner, shape = .wrapper inner ∧ Means schema all (id + 1) place inner := by
  cases shaped with
  | own _ shaped =>
    unfold Node.isNameable at plain
    cases shaped with
    | enumeration form => simp [form] at plain
    | record form => simp [form] at plain
    | union form => simp [form] at plain
  | variant step => cases step.symm.trans top
  | wrapper _ _ means => exact ⟨_, rfl, means⟩

/-- A node with properties is declared with its members, as a record or as a variant. -/
theorem Shaped.of_properties (shaped : Shaped schema all id place shape)
    {required optional : List (String × Node)} {additional : Bool}
    (form : place.node.form = .properties required optional additional) :
    ∃ members, List.Forall₂ (MemberFor schema all (id + 1) place) (merge required optional)
        members ∧
      (shape = .record members additional ∨
        ∃ parent tagValue, shape = .variant parent tagValue members additional) := by
  cases shaped with
  | own _ shaped =>
    cases shaped with
    | record own each =>
      cases form.symm.trans own
      exact ⟨_, each, .inl rfl⟩
    | enumeration own => cases form.symm.trans own
    | union own => cases form.symm.trans own
  | variant _ shaped =>
    cases shaped with
    | record own each =>
      cases form.symm.trans own
      exact ⟨_, each, .inr ⟨_, _, rfl⟩⟩
  | wrapper _ plain _ => simp [Node.isNameable, form] at plain

theorem Shaped.of_enum (shaped : Shaped schema all id place shape) {values : List String}
    (form : place.node.form = .enum values) :
    shape = .enumeration (values.map fun v => ⟨v, place.node.metadata.enumDescribed v⟩) := by
  cases shaped with
  | own _ shaped =>
    cases shaped with
    | record own => cases form.symm.trans own
    | enumeration own =>
      cases form.symm.trans own
      rfl
    | union own => cases form.symm.trans own
  | variant _ shaped =>
    cases shaped with
    | record own => cases form.symm.trans own
  | wrapper _ plain _ => simp [Node.isNameable, form] at plain

theorem Shaped.of_discriminator (shaped : Shaped schema all id place shape) {tag : String}
    {mapping : List (String × Node)} (form : place.node.form = .discriminator tag mapping) :
    ∃ variants, shape = .union tag variants ∧ List.Forall₂ (fun entry v =>
      id < v ∧ all[v]? = some (place.down (.variant entry.1) entry.2)) mapping variants := by
  cases shaped with
  | own _ shaped =>
    cases shaped with
    | record own => cases form.symm.trans own
    | enumeration own => cases form.symm.trans own
    | union own each =>
      cases form.symm.trans own
      exact ⟨_, rfl, each⟩
  | variant _ shaped =>
    cases shaped with
    | record own => cases form.symm.trans own
  | wrapper _ plain _ => simp [Node.isNameable, form] at plain

end Shapes

/-- The declared places that some steps lead to. -/
def declaredAmong (place : Place) (steps : List (Step × Node)) : List Place :=
  (placesBelow place steps).filter Place.isDeclared

def Place.declaredBelow (place : Place) : List Place :=
  declaredAmong place (stepsOf place.node.form)

theorem declaredPlaces_eq (schema : Schema) (rootName : String) :
    declaredPlaces schema rootName = topPlaces schema rootName ++
      (topPlaces schema rootName).flatMap Place.declaredBelow := by
  rw [declaredPlaces, places, List.filter_append, List.filter_flatMap]
  congr 1
  refine List.filter_eq_self.2 fun p member => ?_
  rcases List.mem_cons.1 member with rfl | member
  · rfl
  · obtain ⟨definition, -, rfl⟩ := List.mem_map.1 member
    rfl

/-- What a catalog tells of its schema. -/
structure Mirrors (schema : Schema) (rootName : String) (catalog : Catalog) : Prop where
  described : List.Forall₂ (Describes schema (declaredPlaces schema rootName))
    (declaredPlaces schema rootName) catalog.declarations
  top : ∀ d ∈ catalog.declarations, d.owner = none ↔ d.id ≤ schema.definitions.length
  nested : ∀ d ∈ catalog.declarations, d.owner ≠ none →
    ∃ owner ∈ catalog.declarations, NestedIn owner d

section Lookup

variable {schema : Schema} {rootName : String} {catalog : Catalog}

theorem getElem?_of_forall₂ {α β : Type} {R : α → β → Prop} {xs : List α} {ys : List β}
    (related : List.Forall₂ R xs ys) {i : Nat} {x : α} (found : xs[i]? = some x) :
    ∃ y, ys[i]? = some y ∧ R x y := by
  induction related generalizing i with
  | nil => simp at found
  | @cons a b _ _ first _ ih =>
    cases i with
    | zero =>
      simp only [List.getElem?_cons_zero, Option.some.injEq] at found
      exact ⟨b, rfl, found ▸ first⟩
    | succ i => exact ih (by simpa using found)

theorem map_eq_of_forall₂ {α β γ : Type} {f : α → γ} {g : β → γ} {xs : List α} {ys : List β}
    (related : List.Forall₂ (fun x y => g y = f x) xs ys) : ys.map g = xs.map f := by
  induction related with
  | nil => rfl
  | cons first _ ih => rw [List.map_cons, List.map_cons, first, ih]

theorem forall₂_of_getElem? {α β : Type} {R : α → β → Prop} {xs : List α} {ys : List β}
    (count : xs.length = ys.length)
    (each : ∀ (i : Nat) x y, xs[i]? = some x → ys[i]? = some y → R x y) : List.Forall₂ R xs ys := by
  refine List.forall₂_iff_zip.2 ⟨count, fun {x y} member => ?_⟩
  obtain ⟨i, found⟩ := List.mem_iff_getElem?.1 member
  obtain ⟨left, right⟩ := List.getElem?_zip_eq_some.1 found
  exact each i x y left right

theorem Mirrors.declaration_at (mirrors : Mirrors schema rootName catalog) {id : Nat}
    {place : Place} (found : (declaredPlaces schema rootName)[id]? = some place) :
    ∃ d, catalog.declaration? id = some d ∧
      Describes schema (declaredPlaces schema rootName) place d :=
  getElem?_of_forall₂ mirrors.described found

theorem Mirrors.place_at (mirrors : Mirrors schema rootName catalog) {id : Nat} {d : Declaration}
    (found : catalog.declaration? id = some d) :
    ∃ place, (declaredPlaces schema rootName)[id]? = some place ∧
      Describes schema (declaredPlaces schema rootName) place d :=
  getElem?_of_forall₂ mirrors.described.flip found

theorem getElem?_declaredPlaces_of_le {id : Nat} (top : id ≤ schema.definitions.length) :
    (declaredPlaces schema rootName)[id]? = (topPlaces schema rootName)[id]? := by
  have count : (topPlaces schema rootName).length = schema.definitions.length + 1 := by
    rw [topPlaces, List.length_cons, List.length_map]
  rw [declaredPlaces_eq, List.getElem?_append_left (by omega)]

theorem getElem?_declaredPlaces_root :
    (declaredPlaces schema rootName)[0]? = some (rootPlace schema rootName) := by
  rw [getElem?_declaredPlaces_of_le (Nat.zero_le _)]
  rfl

theorem getElem?_declaredPlaces_definition {i : Nat} {definition : String × Node}
    (found : schema.definitions[i]? = some definition) :
    (declaredPlaces schema rootName)[i + 1]? = some (definitionPlace definition) := by
  obtain ⟨bound, -⟩ := List.getElem?_eq_some_iff.1 found
  rw [getElem?_declaredPlaces_of_le bound, topPlaces, List.getElem?_cons_succ, List.getElem?_map,
    found, Option.map_some]

theorem definitionId?_eq_some {name : String} {id : Nat}
    (found : definitionId? schema name = some id) :
    ∃ i node, id = i + 1 ∧ schema.definitions[i]? = some (name, node) := by
  unfold definitionId? at found
  obtain ⟨i, index, rfl⟩ := Option.map_eq_some_iff.1 found
  obtain ⟨bound, same, -⟩ := List.findIdx?_eq_some_iff_getElem.1 index
  refine ⟨i, schema.definitions[i].2, rfl, ?_⟩
  rw [List.getElem?_eq_getElem bound, ← eq_of_beq same]

theorem located_of_getElem? {id : Nat} {place : Place}
    (found : (declaredPlaces schema rootName)[id]? = some place) :
    Located schema rootName place :=
  mem_places_iff.1 (List.mem_filter.1 (List.mem_of_getElem? found)).1

theorem step_eq_none_of_le {id : Nat} {place : Place} (top : id ≤ schema.definitions.length)
    (found : (declaredPlaces schema rootName)[id]? = some place) : place.step = none := by
  rw [getElem?_declaredPlaces_of_le top] at found
  rcases List.mem_cons.1 (List.mem_of_getElem? found) with rfl | member
  · rfl
  · obtain ⟨definition, -, rfl⟩ := List.mem_map.1 member
    rfl

end Lookup

end SchemaBindings.Catalog
