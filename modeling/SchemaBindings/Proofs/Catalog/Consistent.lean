import SchemaBindings.Binding.Containment
import SchemaBindings.Binding.Hint
import SchemaBindings.Proofs.Catalog.Owners
import SchemaBindings.Proofs.Catalog.Uses
import SchemaBindings.Proofs.Naming.Distinct

/-! A catalog fits together: each number leads to the declaration it is meant for, and whatever a
binding looks up by a number is there. -/

namespace SchemaBindings

/-- The numbers in a use, at any depth. -/
def TypeUse.numbers (use : TypeUse) : List Nat := use.levels.filterMap Binding.direct?

/-- The numbers of other declarations that a shape names. -/
def Shape.numbers (shape : Shape) : List Nat :=
  shape.uses.flatMap TypeUse.numbers ++
    match shape with
    | .union _ variants => variants
    | .variant parent _ _ _ => [parent]
    | _ => []

/-- All numbers in a declaration: its own, its owner's and those in its shape. -/
def Declaration.numbers (d : Declaration) : List Nat :=
  d.id :: (d.owner.toList ++ d.shape.numbers)

namespace Catalog

open Keyed (keys Increasing)
open Naming (Convention Names resolve tagValue?)
open Binding (held holdings markReplaced replaced)
open Schema (Regular)

/-- What the numbers, owners, unions and members of a catalog promise about its schema. -/
structure Consistent (schema : Schema) (rootName : String) (catalog : Catalog) : Prop where
  ids : ∀ i d, catalog.declaration? i = some d → d.id = i
  root : ∃ d, catalog.declaration? 0 = some d ∧ d.path = [rootName] ∧ d.pointer = .root
  names : keys catalog.named = keys schema.definitions
  sorted : Increasing catalog.named
  count : catalog.named.map Prod.snd = List.range' 1 schema.definitions.length
  named : ∀ name id, (name, id) ∈ catalog.named → ∃ d, catalog.declaration? id = some d ∧
    d.path = [name] ∧ d.pointer = Pointer.root.descend ["definitions", name]
  inside : ∀ d ∈ catalog.declarations, ∀ id ∈ d.numbers, id < catalog.size
  top : ∀ d ∈ catalog.declarations, d.owner = none ↔ d.id ≤ schema.definitions.length
  owners : ∀ d ∈ catalog.declarations, ∀ owner, d.owner = some owner → owner < d.id
  /-- A union lists the variants that belong to it and no others, by tag value. -/
  unions : ∀ u ∈ catalog.declarations, ∀ tag variants, u.shape = .union tag variants →
    (∀ v, v ∈ variants ↔ ∃ d, catalog.declaration? v = some d ∧ d.shape.IsVariantOf u.id) ∧
      ∃ tagValues : List String, variants.map (tagValue? catalog) = tagValues.map some ∧
        tagValues.Pairwise (· < ·)
  variants : ∀ d ∈ catalog.declarations, ∀ parent, d.shape.IsVariantOf parent →
    d.owner = some parent ∧ ∃ u, catalog.declaration? parent = some u ∧ u.shape.IsUnion
  members : ∀ d ∈ catalog.declarations, (d.shape.members.map Member.wireName).Pairwise (· < ·)

/-- A number by which something of the catalog may be looked up. -/
def Mentions (catalog : Catalog) (id : Nat) : Prop :=
  id = 0 ∨ (∃ name, (name, id) ∈ catalog.named) ∨ ∃ d ∈ catalog.declarations, id ∈ d.numbers

/-- The names of a declaration are as many as what they are paired with. -/
def Fits (n : Names) : Shape → Prop
  | .record members _ => n.members.length = members.length
  | .variant _ _ members _ => n.members.length = members.length
  | .union _ variants =>
    n.members.length = variants.length ∧ n.constants.length = variants.length
  | .enumeration values => n.constants.length = values.length
  | .wrapper _ => True

/-- What is looked up by a number is there, whether it is the declaration, its names, its mark or
what it holds; and what is paired with names loses nothing. -/
structure Closed (c : Convention) (key : String) (catalog : Catalog) : Prop where
  counts : (resolve c catalog).length = catalog.size ∧ (replaced key catalog).length = catalog.size
  declarations : ∀ id, catalog.Mentions id → ∃ d, catalog.declaration? id = some d
  names : ∀ id, catalog.Mentions id → ∃ n, (resolve c catalog)[id]? = some n
  marks : ∀ id, catalog.Mentions id → ∃ mark, (replaced key catalog)[id]? = some mark
  /-- A search along what declarations hold meets no number that leads nowhere. -/
  targets : ∀ id, catalog.Mentions id → ∃ targets, (holdings catalog)[id]? = some targets ∧
    ∀ target ∈ targets, catalog.Mentions target
  /-- What an owner passes on is read from its own mark. -/
  inherited : ∀ d ∈ catalog.declarations, ∀ owner, d.owner = some owner →
    ∃ mark, (replaced key catalog)[owner]? = some mark ∧
      (replaced key catalog)[d.id]? = some ((d.metadata.hint? key).isSome || mark)
  fits : ∀ id d n, catalog.declaration? id = some d → (resolve c catalog)[id]? = some n →
    Fits n d.shape

section Numbers

theorem mem_numbers_iff {use : TypeUse} {id : Nat} :
    id ∈ use.numbers ↔ use.innermost? = some id := by
  fun_induction TypeUse.innermost? use with
  | case1 item nullable metadata pointer ih =>
    simpa [TypeUse.numbers, TypeUse.levels, Binding.direct?, TypeUse.kind] using ih
  | case2 item nullable metadata pointer ih =>
    simpa [TypeUse.numbers, TypeUse.levels, Binding.direct?, TypeUse.kind] using ih
  | case3 target nullable metadata pointer =>
    simp [TypeUse.numbers, TypeUse.levels, Binding.direct?, TypeUse.kind, eq_comm]
  | case4 kind nullable metadata pointer noElements noValues noDeclared =>
    cases kind with
    | elements item => exact (noElements item rfl).elim
    | values item => exact (noValues item rfl).elim
    | declared id => exact (noDeclared id rfl).elim
    | _ => simp [TypeUse.numbers, TypeUse.levels, Binding.direct?, TypeUse.kind]

theorem mem_numbers_of_item {use item : TypeUse} {id : Nat}
    (kind : use.kind = .elements item ∨ use.kind = .values item) (number : id ∈ item.numbers) :
    id ∈ use.numbers := by
  obtain ⟨level, inside, direct⟩ := List.mem_filterMap.1 number
  exact List.mem_filterMap.2 ⟨level, levels_of_item kind ▸ List.mem_cons_of_mem _ inside, direct⟩

theorem mem_numbers_of_direct {use : TypeUse} {id : Nat} (direct : Binding.direct? use = some id) :
    id ∈ use.numbers :=
  List.mem_filterMap.2 ⟨use, self_mem_levels use, direct⟩

theorem mem_numbers_of_held {shape : Shape} {id : Nat} (inside : id ∈ held shape) :
    id ∈ shape.numbers := by
  have ofUse {use : TypeUse} (member : use ∈ shape.uses) (direct : Binding.direct? use = some id) :
      id ∈ shape.numbers :=
    List.mem_append_left _ (List.mem_flatMap.2 ⟨use, member, mem_numbers_of_direct direct⟩)
  cases shape with
  | record members additional =>
    obtain ⟨m, member, direct⟩ := List.mem_filterMap.1 inside
    exact ofUse (List.mem_map_of_mem member) direct
  | variant parent tagValue members additional =>
    obtain ⟨m, member, direct⟩ := List.mem_filterMap.1 inside
    exact ofUse (List.mem_map_of_mem member) direct
  | union tag variants => exact List.mem_append_right _ inside
  | wrapper inner => exact ofUse List.mem_cons_self (Option.mem_toList.1 inside)
  | enumeration values => cases inside

end Numbers

section Marks

variable {key : String}

theorem markReplaced_eq_append (key : String) (marks : List Bool) (ds : List Declaration) :
    ∃ more, markReplaced key marks ds = marks ++ more ∧ more.length = ds.length := by
  induction ds generalizing marks with
  | nil => exact ⟨[], (List.append_nil _).symm, rfl⟩
  | cons d rest ih =>
    rw [markReplaced]
    obtain ⟨more, same, count⟩ := ih (marks ++ [_])
    exact ⟨_ :: more, by rw [same, List.append_assoc, List.singleton_append], by simp [count]⟩

theorem markReplaced_append (marks : List Bool) (ds more : List Declaration) :
    markReplaced key marks (ds ++ more) = markReplaced key (markReplaced key marks ds) more := by
  induction ds generalizing marks with
  | nil => rfl
  | cons d rest ih =>
    rw [List.cons_append, markReplaced, ih, markReplaced]

theorem length_replaced (catalog : Catalog) : (replaced key catalog).length = catalog.size := by
  obtain ⟨marks, same, count⟩ := markReplaced_eq_append key [] catalog.declarations
  rw [replaced, same, List.nil_append, count, size]

/-- The mark of a declaration that comes after its owner, if it has one. -/
theorem mark_of_declaration {catalog : Catalog} {d : Declaration}
    (found : catalog.declaration? d.id = some d)
    (later : ∀ owner, d.owner = some owner → owner < d.id) :
    (replaced key catalog)[d.id]? = some ((d.metadata.hint? key).isSome ||
      (d.owner.bind fun owner => (replaced key catalog)[owner]?).getD false) := by
  obtain ⟨inside, here⟩ := List.getElem?_eq_some_iff.1 found
  have split : catalog.declarations =
      catalog.declarations.take d.id ++ d :: catalog.declarations.drop (d.id + 1) := by
    conv_lhs => rw [← List.take_append_drop d.id catalog.declarations]
    rw [List.drop_eq_getElem_cons inside, here]
  obtain ⟨marks, soFar, count⟩ :=
    markReplaced_eq_append key [] (catalog.declarations.take d.id)
  rw [List.length_take, Nat.min_eq_left (Nat.le_of_lt inside)] at count
  obtain ⟨more, whole, -⟩ := markReplaced_eq_append key
    (marks ++ [(d.metadata.hint? key).isSome ||
      (d.owner.bind fun owner => marks[owner]?).getD false])
    (catalog.declarations.drop (d.id + 1))
  have same : replaced key catalog = marks ++ ((d.metadata.hint? key).isSome ||
      (d.owner.bind fun owner => marks[owner]?).getD false) :: more := by
    rw [replaced, split, markReplaced_append, soFar, List.nil_append, markReplaced]
    cases owned : d.owner <;>
      simpa only [owned, Option.bind_none, Option.bind_some, Option.getD_none, List.append_assoc,
        List.singleton_append] using whole
  have above : (d.owner.bind fun owner => (replaced key catalog)[owner]?) =
      d.owner.bind fun owner => marks[owner]? := by
    cases owned : d.owner with
    | none => rfl
    | some owner =>
      simp only [Option.bind_some]
      rw [same, List.getElem?_append_left (count ▸ later owner owned)]
  rw [above, same, ← count, List.getElem?_append_right (Nat.le_refl _), Nat.sub_self,
    List.getElem?_cons_zero]

theorem mark_of_owner {catalog : Catalog} {d : Declaration}
    (found : catalog.declaration? d.id = some d) {owner : Nat} (owned : d.owner = some owner)
    (later : owner < d.id) :
    ∃ mark, (replaced key catalog)[owner]? = some mark ∧
      (replaced key catalog)[d.id]? = some ((d.metadata.hint? key).isSome || mark) := by
  have bound : owner < (replaced key catalog).length := by
    rw [length_replaced]
    exact Nat.lt_trans later (List.getElem?_eq_some_iff.1 found).1
  have above := List.getElem?_eq_getElem bound
  refine ⟨_, above, ?_⟩
  rw [mark_of_declaration found (by rintro _ other; cases owned.symm.trans other; exact later),
    owned, Option.bind_some, above, Option.getD_some]

end Marks

section Promises

variable {schema : Schema} {rootName : String} {catalog : Catalog}

theorem Linked.declaration?_id (linked : Linked catalog) {d : Declaration}
    (inside : d ∈ catalog.declarations) : catalog.declaration? d.id = some d := by
  obtain ⟨i, found⟩ := List.mem_iff_getElem?.1 inside
  rwa [linked.ids i d found]

theorem lt_size_of_declaration? {id : Nat} {d : Declaration}
    (found : catalog.declaration? id = some d) : id < catalog.size :=
  (List.getElem?_eq_some_iff.1 found).1

theorem lt_size_of_shape? {id : Nat} {shape : Shape} (found : catalog.shape? id = some shape) :
    id < catalog.size := by
  obtain ⟨d, found, -⟩ := Option.map_eq_some_iff.1 found
  exact lt_size_of_declaration? found

theorem Mirrors.place_of_mem (mirrors : Mirrors schema rootName catalog) (linked : Linked catalog)
    {d : Declaration} (inside : d ∈ catalog.declarations) :
    ∃ place, (declaredPlaces schema rootName)[d.id]? = some place ∧
      Describes schema (declaredPlaces schema rootName) place d :=
  mirrors.place_at (linked.declaration?_id inside)

theorem Mirrors.lt_size_of_owner (mirrors : Mirrors schema rootName catalog)
    (linked : Linked catalog) {d : Declaration} (inside : d ∈ catalog.declarations) {owner : Nat}
    (owned : d.owner = some owner) : owner < d.id ∧ owner < catalog.size := by
  obtain ⟨o, member, nested⟩ := mirrors.nested d inside (by simp [owned])
  obtain rfl := Option.some.inj (nested.owned.symm.trans owned)
  exact ⟨nested.later, lt_size_of_declaration? (linked.declaration?_id member)⟩

theorem Mirrors.ownersFirst (mirrors : Mirrors schema rootName catalog) (linked : Linked catalog) :
    OwnersFirst catalog :=
  fun _ inside _ owned => (mirrors.lt_size_of_owner linked inside owned).1

/-- A variant is nested in the union that lists it. -/
theorem Mirrors.union_of_variant (mirrors : Mirrors schema rootName catalog)
    (linked : Linked catalog) {d : Declaration} (inside : d ∈ catalog.declarations) {parent : Nat}
    (variant : d.shape.IsVariantOf parent) :
    ∃ u ∈ catalog.declarations, u.id = parent ∧ d.owner = some parent ∧
      ∃ tag variants, u.shape = .union tag variants ∧ d.id ∈ variants := by
  have below : d.owner ≠ none := by
    intro top
    obtain ⟨place, found, describes⟩ := mirrors.place_of_mem linked inside
    obtain ⟨tagValue, step⟩ := describes.shape.step_of_variant variant
    cases step.symm.trans (step_eq_none_of_le ((mirrors.top d inside).1 top) found)
  obtain ⟨u, member, nested⟩ := mirrors.nested d inside below
  cases nested.hangs with
  | member _ _ _ plain => exact (plain parent variant).elim
  | item _ _ _ plain => exact (plain parent variant).elim
  | variant union listed own _ =>
    obtain ⟨_, _, _, same⟩ := variant
    cases own.symm.trans same
    exact ⟨u, member, rfl, nested.owned, _, _, union, listed⟩

theorem Mirrors.tagValue?_of_place (mirrors : Mirrors schema rootName catalog) {v : Nat}
    {place : Place} {tagValue : String} {node : Node}
    (found : (declaredPlaces schema rootName)[v]? = some (place.down (.variant tagValue) node)) :
    tagValue? catalog v = some tagValue := by
  obtain ⟨d, declared, describes⟩ := mirrors.declaration_at found
  obtain ⟨parent, members, additional, same⟩ := describes.shape.variant_of_step rfl
  rw [tagValue?, shape?, declared, Option.map_some, same]

theorem Mirrors.tagValues (mirrors : Mirrors schema rootName catalog) (regular : Regular schema)
    (linked : Linked catalog) {u : Declaration} (inside : u ∈ catalog.declarations) {tag : String}
    {variants : List Nat} (union : u.shape = .union tag variants) :
    ∃ tagValues : List String, variants.map (tagValue? catalog) = tagValues.map some ∧
      tagValues.Pairwise (· < ·) := by
  obtain ⟨place, found, describes⟩ := mirrors.place_of_mem linked inside
  have shaped := describes.shape
  rw [union] at shaped
  cases shaped with
  | own _ shaped =>
    cases shaped with
    | @union _ mapping _ form all_variants =>
      have within := (located_of_getElem? found).contains
      refine ⟨keys mapping, ?_, Keyed.increasing_iff_keys.1
        ((regular.nodes _ within).mapping _ _ form).1⟩
      rw [keys, List.map_map]
      apply map_eq_of_forall₂
      exact all_variants.imp fun _ _ listed => mirrors.tagValue?_of_place listed.2

theorem wireNames_of_shapeFor {all : List Place} {id : Nat} {place : Place} {members : List Member}
    {additional : Bool} (regular : Schema.RegularNode place.node)
    (shaped : ShapeFor schema all id place (.record members additional)) :
    (members.map Member.wireName).Pairwise (· < ·) := by
  cases shaped with
  | @record required optional _ _ form all_members =>
    obtain ⟨requiredIncreasing, optionalIncreasing, disjoint⟩ := regular.properties _ _ _ form
    rw [map_eq_of_forall₂ (all_members.imp fun _ _ member => member.name)]
    exact List.pairwise_map.2 (increasing_merge requiredIncreasing optionalIncreasing disjoint)

theorem Mirrors.wireNames (mirrors : Mirrors schema rootName catalog) (regular : Regular schema)
    (linked : Linked catalog) {d : Declaration} (inside : d ∈ catalog.declarations) :
    (d.shape.members.map Member.wireName).Pairwise (· < ·) := by
  obtain ⟨place, found, describes⟩ := mirrors.place_of_mem linked inside
  have node := regular.nodes _ (located_of_getElem? found).contains
  have shaped := describes.shape
  cases shape : d.shape with
  | record members additional =>
    rw [shape] at shaped
    cases shaped with
    | own _ shaped => exact wireNames_of_shapeFor node shaped
  | variant parent tagValue members additional =>
    rw [shape] at shaped
    exact wireNames_of_shapeFor node shaped.variant_inv
  | _ => exact .nil

theorem Linked.lt_size_of_mem_numbers (linked : Linked catalog) {d : Declaration}
    (inside : d ∈ catalog.declarations) {id : Nat} (member : id ∈ d.shape.numbers) :
    id < catalog.size := by
  rcases List.mem_append.1 member with member | member
  · obtain ⟨use, inUses, inUse⟩ := List.mem_flatMap.1 member
    exact linked.uses d inside use inUses id (mem_numbers_iff.1 inUse)
  · cases shape : d.shape with
    | union tag variants =>
      have listed : id ∈ variants := by simpa [shape] using member
      obtain ⟨_, found, -⟩ := linked.variants d inside tag variants shape id listed
      exact lt_size_of_shape? found
    | variant parent tagValue members additional =>
      obtain rfl : id = parent := by simpa [shape] using member
      obtain ⟨_, found, -⟩ := linked.parents d inside id ⟨_, _, _, shape⟩
      exact lt_size_of_shape? found
    | _ => simp [shape] at member

theorem Linked.lt_size_of_mem_uses (linked : Linked catalog) {use : TypeUse}
    (used : use ∈ catalog.uses) {id : Nat} (member : id ∈ use.numbers) : id < catalog.size := by
  obtain ⟨level, inner, direct⟩ := List.mem_filterMap.1 member
  obtain ⟨d, inside, used⟩ := List.mem_flatMap.1 used
  obtain ⟨outer, listed, own⟩ := List.mem_flatMap.1 used
  have number : id ∈ outer.numbers :=
    List.mem_filterMap.2 ⟨level, mem_levels_trans own inner, direct⟩
  exact linked.lt_size_of_mem_numbers inside
    (List.mem_append_left _ (List.mem_flatMap.2 ⟨outer, listed, number⟩))

/-- A number beside a name is that of the declaration that stands for the definition. -/
theorem Mirrors.declaration_named (mirrors : Mirrors schema rootName catalog)
    (named : catalog.named = (keys schema.definitions).zipIdx 1) {name : String} {id : Nat}
    (member : (name, id) ∈ catalog.named) :
    ∃ d, catalog.declaration? id = some d ∧ d.path = [name] ∧
      d.pointer = Pointer.root.descend ["definitions", name] := by
  rw [named, List.mk_mem_zipIdx_iff_le_and_getElem?_sub] at member
  obtain ⟨lower, found⟩ := member
  rw [keys, List.getElem?_map, Option.map_eq_some_iff] at found
  obtain ⟨definition, found, rfl⟩ := found
  have place : (declaredPlaces schema rootName)[id - 1 + 1]? = some (definitionPlace definition) :=
    getElem?_declaredPlaces_definition found
  rw [Nat.sub_add_cancel lower] at place
  obtain ⟨d, declared, describes⟩ := mirrors.declaration_at place
  exact ⟨d, declared, describes.path, describes.pointer⟩

theorem Mirrors.mem_variants_iff (mirrors : Mirrors schema rootName catalog)
    (linked : Linked catalog) {u : Declaration} (inside : u ∈ catalog.declarations) {tag : String}
    {variants : List Nat} (union : u.shape = .union tag variants) (v : Nat) :
    v ∈ variants ↔ ∃ d, catalog.declaration? v = some d ∧ d.shape.IsVariantOf u.id := by
  constructor
  · intro member
    obtain ⟨shape, found, variant⟩ := linked.variants u inside tag variants union v member
    obtain ⟨d, declared, rfl⟩ := Option.map_eq_some_iff.1 found
    exact ⟨d, declared, variant⟩
  · rintro ⟨d, found, variant⟩
    -- The variant is in the list of some union, and no two declarations have one number.
    obtain ⟨other, member, same, -, _, _, shape, listed⟩ :=
      mirrors.union_of_variant linked (List.mem_of_getElem? found) variant
    have again := linked.declaration?_id member
    rw [same, linked.declaration?_id inside] at again
    obtain rfl := Option.some.inj again
    rw [union] at shape
    cases shape
    rwa [linked.ids v d found] at listed

theorem consistent_of_mirrors (mirrors : Mirrors schema rootName catalog)
    (linked : Linked catalog) (regular : Regular schema)
    (named : catalog.named = (keys schema.definitions).zipIdx 1) :
    Consistent schema rootName catalog := by
  have names : keys catalog.named = keys schema.definitions := by
    rw [named, keys, List.zipIdx_map_fst]
  constructor
  case ids => exact linked.ids
  case root =>
    obtain ⟨d, found, describes⟩ := mirrors.declaration_at getElem?_declaredPlaces_root
    exact ⟨d, found, describes.path, describes.pointer⟩
  case names => exact names
  case sorted =>
    rw [Keyed.increasing_iff_keys, names]
    exact Keyed.increasing_iff_keys.1 regular.definitions
  case count => rw [named, List.zipIdx_map_snd, keys, List.length_map]
  case named => exact fun _ _ member => mirrors.declaration_named named member
  case inside =>
    intro d inside id member
    rcases List.mem_cons.1 member with rfl | member
    · exact lt_size_of_declaration? (linked.declaration?_id inside)
    · rcases List.mem_append.1 member with owned | member
      · exact (mirrors.lt_size_of_owner linked inside (Option.mem_toList.1 owned)).2
      · exact linked.lt_size_of_mem_numbers inside member
  case top => exact mirrors.top
  case owners => exact mirrors.ownersFirst linked
  case unions =>
    intro u inside tag variants union
    exact ⟨mirrors.mem_variants_iff linked inside union,
      mirrors.tagValues regular linked inside union⟩
  case variants =>
    intro d inside parent variant
    obtain ⟨u, member, rfl, owned, tag, variants, shape, -⟩ :=
      mirrors.union_of_variant linked inside variant
    exact ⟨owned, u, linked.declaration?_id member, tag, variants, shape⟩
  case members => exact fun d inside => mirrors.wireNames regular linked inside

end Promises

theorem fits_resolve {catalog : Catalog} (linked : Linked catalog) (c : Convention) {id : Nat}
    {d : Declaration} {n : Names} (found : catalog.declaration? id = some d)
    (named : (resolve c catalog)[id]? = some n) : Fits n d.shape := by
  have shape : catalog.shape? id = some d.shape := by rw [shape?, found, Option.map_some]
  have distinct := Naming.distinctIn_resolve c catalog linked shape named
  cases same : d.shape with
  | record members additional => exact (distinct.record _ _ same).1
  | variant parent tagValue members additional => exact (distinct.variant _ _ _ _ same).1
  | union tag variants =>
    obtain ⟨members, constants, -⟩ := distinct.union _ _ same
    exact ⟨members, constants⟩
  | enumeration values => exact (distinct.enumeration _ same).1
  | wrapper inner => trivial

theorem closed_of_consistent {schema : Schema} {rootName : String} {catalog : Catalog}
    (consistent : Consistent schema rootName catalog) (linked : Linked catalog) (c : Convention)
    (key : String) : Closed c key catalog := by
  have bound {id : Nat} (mentioned : catalog.Mentions id) : id < catalog.size := by
    rcases mentioned with rfl | ⟨name, member⟩ | ⟨d, inside, member⟩
    · obtain ⟨d, found, -⟩ := consistent.root
      exact lt_size_of_declaration? found
    · obtain ⟨d, found, -⟩ := consistent.named name id member
      exact lt_size_of_declaration? found
    · exact consistent.inside d inside id member
  -- All tables have one entry for each declaration.
  have entry {α : Type} (table : List α) (count : table.length = catalog.size) {id : Nat}
      (mentioned : catalog.Mentions id) : ∃ a, table[id]? = some a :=
    ⟨_, List.getElem?_eq_getElem (count ▸ bound mentioned)⟩
  constructor
  case counts => exact ⟨Naming.length_resolve c catalog, length_replaced catalog⟩
  case declarations => exact fun id mentioned => entry catalog.declarations rfl mentioned
  case names => exact fun id mentioned => entry _ (Naming.length_resolve c catalog) mentioned
  case marks => exact fun id mentioned => entry _ (length_replaced catalog) mentioned
  case targets =>
    intro id mentioned
    obtain ⟨d, found⟩ := entry catalog.declarations rfl mentioned
    refine ⟨held d.shape, by rw [holdings, List.getElem?_map, found, Option.map_some], ?_⟩
    intro target member
    exact .inr (.inr ⟨d, List.mem_of_getElem? found,
      List.mem_cons_of_mem _ (List.mem_append_right _ (mem_numbers_of_held member))⟩)
  case inherited =>
    intro d inside owner owned
    exact mark_of_owner (linked.declaration?_id inside) owned
      (consistent.owners d inside owner owned)
  case fits => exact fun id d n found named => fits_resolve linked c found named

/-- The catalog of a schema that was read fits together, and nothing that is looked up in it is
missing. -/
theorem consistent_ofSchema {document : Json} {schema : Schema}
    (read : Schema.ofJson document = .ok schema) (rootName : String) :
    Consistent schema rootName (ofSchema schema rootName) ∧
      ∀ c key, Closed c key (ofSchema schema rootName) := by
  have regular := Schema.regular_of_ofJson read
  have linked := linked_ofSchema schema rootName
  have consistent := consistent_of_mirrors (mirrors_ofSchema regular rootName) linked regular rfl
  exact ⟨consistent, closed_of_consistent consistent linked⟩

theorem consistent_drawing :
    ∃ schema, Schema.ofJson Schema.drawing = .ok schema ∧
      Consistent schema "drawing" (ofSchema schema "drawing") ∧
      ∀ c key, Closed c key (ofSchema schema "drawing") := by
  obtain ⟨schema, read⟩ := Schema.exists_ofJson_drawing
  exact ⟨schema, read, consistent_ofSchema read "drawing"⟩

end Catalog

end SchemaBindings
