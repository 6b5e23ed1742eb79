import SchemaBindings.Proofs.Catalog.Described

/-! The uses of types in a catalog. Each stands for a place whose type is used where it stands, and
each such place has one. -/

namespace SchemaBindings.Catalog

open Schema (Regular)

/-- All uses in a catalog, those inside of others included. -/
def uses (catalog : Catalog) : List TypeUse :=
  catalog.declarations.flatMap (fun d => d.shape.uses.flatMap TypeUse.levels)

/-- The places whose type is used where they stand: members, items, and what is wrapped. -/
inductive HasUse (place : Place) : Prop
  | member {name : String} {required : Bool} (step : place.step = some (.property name required))
  | element (step : place.step = some .element)
  | value (step : place.step = some .value)
  | wrapped (top : place.step = none) (plain : place.node.isNameable = false)

variable {schema : Schema} {rootName : String} {catalog : Catalog} {all : List Place} {first : Nat}

theorem self_mem_levels (use : TypeUse) : use ∈ use.levels := by
  obtain ⟨kind, nullable, metadata, pointer⟩ := use
  cases kind <;> simp [TypeUse.levels]

theorem levels_of_item {use item : TypeUse}
    (kind : use.kind = .elements item ∨ use.kind = .values item) :
    use.levels = use :: item.levels := by
  obtain ⟨_, nullable, metadata, pointer⟩ := use
  rcases kind with rfl | rfl <;> rw [TypeUse.levels]

theorem Means.pointer_eq {place : Place} {use : TypeUse}
    (means : Means schema all first place use) : use.pointer = place.pointer := by
  cases means <;> rfl

theorem Means.metadata_eq {place : Place} {use : TypeUse}
    (means : Means schema all first place use) : use.metadata = place.node.metadata := by
  cases means <;> rfl

theorem mem_uses_of_mem_shape {d : Declaration} (inside : d ∈ catalog.declarations)
    {use level : TypeUse} (used : use ∈ d.shape.uses) (member : level ∈ use.levels) :
    level ∈ catalog.uses :=
  List.mem_flatMap.2 ⟨d, inside, List.mem_flatMap.2 ⟨use, used, member⟩⟩

/-- The uses inside a use stand for the items inside its place. -/
theorem Means.levels {place : Place} {use level : TypeUse}
    (means : Means schema all first place use) (located : Located schema rootName place)
    (typed : HasUse place) (member : level ∈ use.levels) :
    ∃ p, Located schema rootName p ∧ HasUse p ∧ Means schema all first p level := by
  fun_induction TypeUse.levels use generalizing place with
  | case1 item nullable metadata pointer ih =>
    rcases List.mem_cons.1 member with rfl | deeper
    · exact ⟨place, located, typed, means⟩
    · cases means with
      | elements form inner => exact ih inner (.down located (.element form)) (.element rfl) deeper
  | case2 item nullable metadata pointer ih =>
    rcases List.mem_cons.1 member with rfl | deeper
    · exact ⟨place, located, typed, means⟩
    · cases means with
      | values form inner => exact ih inner (.down located (.value form)) (.value rfl) deeper
  | case3 use noElements noValues =>
    obtain rfl := List.mem_singleton.1 member
    exact ⟨place, located, typed, means⟩

theorem mem_levels_trans {a b c : TypeUse} (inner : b ∈ a.levels) (innermost : c ∈ b.levels) :
    c ∈ a.levels := by
  fun_induction TypeUse.levels a with
  | case1 item nullable metadata pointer ih =>
    rcases List.mem_cons.1 inner with rfl | inner
    · exact innermost
    · exact List.mem_cons_of_mem _ (ih inner)
  | case2 item nullable metadata pointer ih =>
    rcases List.mem_cons.1 inner with rfl | inner
    · exact innermost
    · exact List.mem_cons_of_mem _ (ih inner)
  | case3 use noElements noValues =>
    obtain rfl := List.mem_singleton.1 inner
    rwa [TypeUse.levels.eq_3 _ noElements noValues] at innermost

theorem Means.exists_element {place : Place} {use : TypeUse}
    (means : Means schema all first place use) {item : Node}
    (form : place.node.form = .elements item) :
    ∃ inner ∈ use.levels, Means schema all first (place.down .element item) inner := by
  cases means with
  | elements own inner =>
    cases own.symm.trans form
    exact ⟨_, List.mem_cons_of_mem _ (self_mem_levels _), inner⟩
  | declared nameable => simp [Node.isNameable, form] at nameable
  | _ own => cases own.symm.trans form

theorem Means.exists_value {place : Place} {use : TypeUse}
    (means : Means schema all first place use) {item : Node}
    (form : place.node.form = .values item) :
    ∃ inner ∈ use.levels, Means schema all first (place.down .value item) inner := by
  cases means with
  | values own inner =>
    cases own.symm.trans form
    exact ⟨_, List.mem_cons_of_mem _ (self_mem_levels _), inner⟩
  | declared nameable => simp [Node.isNameable, form] at nameable
  | _ own => cases own.symm.trans form

theorem mem_uses_of_mem_levels {use level : TypeUse} (inside : use ∈ catalog.uses)
    (member : level ∈ use.levels) : level ∈ catalog.uses := by
  obtain ⟨d, declared, inside⟩ := List.mem_flatMap.1 inside
  obtain ⟨outer, used, inside⟩ := List.mem_flatMap.1 inside
  exact mem_uses_of_mem_shape declared used (mem_levels_trans inside member)

theorem ShapeFor.means_of_mem_uses {id : Nat} {place : Place} {shape : Shape}
    (shaped : ShapeFor schema all id place shape) (located : Located schema rootName place)
    {use : TypeUse} (used : use ∈ shape.uses) :
    ∃ p, Located schema rootName p ∧ HasUse p ∧ Means schema all (id + 1) p use := by
  cases shaped with
  | enumeration => cases used
  | union => cases used
  | record form all_members =>
    obtain ⟨m, member, rfl⟩ := List.mem_map.1 used
    obtain ⟨i, found⟩ := List.mem_iff_getElem?.1 member
    obtain ⟨p, listed, memberFor⟩ := getElem?_of_forall₂ all_members.flip found
    have leads : HasStep place.node (.property p.name p.required) p.node := by
      rw [← mem_stepsOf, form]
      exact List.mem_map_of_mem (List.mem_of_getElem? listed)
    exact ⟨_, .down located leads, .member rfl, memberFor.type⟩

theorem Shaped.means_of_mem_uses {id : Nat} {place : Place} {shape : Shape}
    (shaped : Shaped schema all id place shape) (located : Located schema rootName place)
    {use : TypeUse} (used : use ∈ shape.uses) :
    ∃ p, Located schema rootName p ∧ HasUse p ∧ Means schema all (id + 1) p use := by
  cases shaped with
  | own _ shaped => exact shaped.means_of_mem_uses located used
  | variant _ shaped => exact shaped.means_of_mem_uses located used
  | wrapper top plain means =>
    obtain rfl := List.mem_singleton.1 used
    exact ⟨place, located, .wrapped top plain, means⟩

/-- Every use in a catalog stands for a place. -/
theorem Mirrors.means_of_mem_uses (mirrors : Mirrors schema rootName catalog) {use : TypeUse}
    (inside : use ∈ catalog.uses) :
    ∃ place first, Located schema rootName place ∧ HasUse place ∧
      Means schema (declaredPlaces schema rootName) first place use := by
  obtain ⟨d, declared, inside⟩ := List.mem_flatMap.1 inside
  obtain ⟨outer, used, member⟩ := List.mem_flatMap.1 inside
  obtain ⟨i, found⟩ := List.mem_iff_getElem?.1 declared
  obtain ⟨place, numbered, describes⟩ := mirrors.place_at found
  obtain ⟨p, located, typed, means⟩ :=
    describes.shape.means_of_mem_uses (located_of_getElem? numbered) used
  obtain ⟨p, located, typed, means⟩ := means.levels located typed member
  exact ⟨p, d.id + 1, located, typed, means⟩

/-- What holds of the metadata of every node holds of all metadata in the catalog. -/
theorem Mirrors.forall_metadata {P : Metadata → Prop} (mirrors : Mirrors schema rootName catalog)
    (each : ∀ node, Schema.Contains schema node → P node.metadata) :
    (∀ d ∈ catalog.declarations, P d.metadata) ∧ ∀ use ∈ catalog.uses, P use.metadata := by
  constructor
  · intro d member
    obtain ⟨id, found⟩ := List.mem_iff_getElem?.1 member
    obtain ⟨place, numbered, describes⟩ := mirrors.place_at found
    rw [describes.metadata]
    exact each _ (located_of_getElem? numbered).contains
  · intro use member
    obtain ⟨place, first, located, -, means⟩ := mirrors.means_of_mem_uses member
    rw [means.metadata_eq]
    exact each _ located.contains

theorem ShapeFor.exists_member {id : Nat} {place : Place} {shape : Shape}
    (shaped : ShapeFor schema all id place shape) {name : String} {required : Bool} {node : Node}
    (leads : HasStep place.node (.property name required) node) :
    ∃ use ∈ shape.uses,
      Means schema all (id + 1) (place.down (.property name required) node) use := by
  have listed := mem_stepsOf.2 leads
  cases shaped with
  | enumeration form => simp [form, stepsOf] at listed
  | union form => simp [form, stepsOf, variantSteps] at listed
  | record form all_members =>
    rw [form] at listed
    obtain ⟨p, inside, same⟩ := List.mem_map.1 listed
    cases same
    obtain ⟨i, found⟩ := List.mem_iff_getElem?.1 inside
    obtain ⟨m, member, memberFor⟩ := getElem?_of_forall₂ all_members found
    exact ⟨m.type, List.mem_map_of_mem (List.mem_of_getElem? member), memberFor.type⟩

theorem Shaped.exists_member {id : Nat} {place : Place} {shape : Shape}
    (shaped : Shaped schema all id place shape) {name : String} {required : Bool} {node : Node}
    (leads : HasStep place.node (.property name required) node) :
    ∃ use ∈ shape.uses,
      Means schema all (id + 1) (place.down (.property name required) node) use := by
  cases shaped with
  | own _ shaped => exact shaped.exists_member leads
  | variant _ shaped => exact shaped.exists_member leads
  | wrapper _ plain =>
    unfold Node.isNameable at plain
    cases leads with
    | required form => simp [form] at plain
    | optional form => simp [form] at plain

theorem hasUse_of_plain (regular : Regular schema) {place : Place}
    (located : Located schema rootName place) (plain : place.node.isNameable = false) :
    HasUse place := by
  cases located with
  | root => exact .wrapped rfl plain
  | definition => exact .wrapped rfl plain
  | down within leads =>
    cases leads with
    | element => exact .element rfl
    | value => exact .value rfl
    | required => exact .member rfl
    | optional => exact .member rfl
    | variant form member =>
      obtain ⟨-, entries⟩ := (regular.nodes _ within.contains).mapping _ _ form
      obtain ⟨-, required, optional, additional, own⟩ := entries _ member
      unfold Place.down Node.isNameable at plain
      simp [own] at plain

theorem Mirrors.exists_use_of_top (mirrors : Mirrors schema rootName catalog) {id : Nat}
    {place : Place} (numbered : (declaredPlaces schema rootName)[id]? = some place)
    (top : place.step = none) (plain : place.node.isNameable = false) :
    ∃ first, ∃ use ∈ catalog.uses,
      Means schema (declaredPlaces schema rootName) first place use := by
  obtain ⟨d, declared, describes⟩ := mirrors.declaration_at numbered
  obtain ⟨inner, shape, means⟩ := describes.shape.wrapper_of_plain top plain
  refine ⟨d.id + 1, inner, ?_, means⟩
  refine mem_uses_of_mem_shape (List.mem_of_getElem? declared) ?_ (self_mem_levels inner)
  rw [shape]
  exact List.mem_singleton.2 rfl

theorem Mirrors.exists_use_of_member (mirrors : Mirrors schema rootName catalog) {place : Place}
    (located : Located schema rootName place) {name : String} {required : Bool} {node : Node}
    (leads : HasStep place.node (.property name required) node)
    (nameable : place.node.isNameable = true) :
    ∃ first, ∃ use ∈ catalog.uses, Means schema (declaredPlaces schema rootName) first
      (place.down (.property name required) node) use := by
  have inside : place ∈ declaredPlaces schema rootName := by
    refine List.mem_filter.2 ⟨mem_places_iff.2 located, ?_⟩
    unfold Place.isDeclared
    split <;> simp [nameable]
  obtain ⟨i, numbered⟩ := List.mem_iff_getElem?.1 inside
  obtain ⟨d, declared, describes⟩ := mirrors.declaration_at numbered
  obtain ⟨use, used, means⟩ := describes.shape.exists_member leads
  have member := mem_uses_of_mem_shape (List.mem_of_getElem? declared) used (self_mem_levels use)
  exact ⟨d.id + 1, use, member, means⟩

/-- Every place that is used where it stands has a use in the catalog. -/
theorem Mirrors.exists_use (mirrors : Mirrors schema rootName catalog) (regular : Regular schema)
    {place : Place} (located : Located schema rootName place) (typed : HasUse place) :
    ∃ first, ∃ use ∈ catalog.uses,
      Means schema (declaredPlaces schema rootName) first place use := by
  induction located with
  | root =>
    cases typed with
    | wrapped top plain => exact mirrors.exists_use_of_top getElem?_declaredPlaces_root top plain
    | _ step => cases step
  | definition member =>
    obtain ⟨i, found⟩ := List.mem_iff_getElem?.1 member
    cases typed with
    | wrapped top plain =>
      exact mirrors.exists_use_of_top (getElem?_declaredPlaces_definition found) top plain
    | _ step => cases step
  | @down parent step node within leads ih =>
    cases leads with
    | element form =>
      have plain : parent.node.isNameable = false := by simp [Node.isNameable, form]
      obtain ⟨first, use, inside, means⟩ := ih (hasUse_of_plain regular within plain)
      obtain ⟨inner, member, means⟩ := means.exists_element form
      exact ⟨first, inner, mem_uses_of_mem_levels inside member, means⟩
    | value form =>
      have plain : parent.node.isNameable = false := by simp [Node.isNameable, form]
      obtain ⟨first, use, inside, means⟩ := ih (hasUse_of_plain regular within plain)
      obtain ⟨inner, member, means⟩ := means.exists_value form
      exact ⟨first, inner, mem_uses_of_mem_levels inside member, means⟩
    | required form member =>
      exact mirrors.exists_use_of_member within (.required form member)
        (by simp [Node.isNameable, form])
    | optional form member =>
      exact mirrors.exists_use_of_member within (.optional form member)
        (by simp [Node.isNameable, form])
    | variant =>
      cases typed with
      | wrapped top => cases top
      | _ step => cases step

end SchemaBindings.Catalog
