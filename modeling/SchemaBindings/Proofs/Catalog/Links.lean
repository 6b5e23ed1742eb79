import SchemaBindings.Catalog.OfSchema

/-! The numbers of a catalog lead where they should: a declaration has the number of its place, a
use names a declaration that exists, and unions and variants know each other. -/

namespace SchemaBindings

/-- The declaration that a use comes down to under all lists and maps. -/
def TypeUse.innermost? : TypeUse → Option Nat
  | mk (.elements item) _ _ _ => item.innermost?
  | mk (.values item) _ _ _ => item.innermost?
  | mk (.declared id) _ _ _ => some id
  | mk _ _ _ _ => none

def Shape.uses : Shape → List TypeUse
  | .record members _ => members.map Member.type
  | .variant _ _ members _ => members.map Member.type
  | .wrapper inner => [inner]
  | _ => []

theorem Shape.type_mem_uses {shape : Shape} {m : Member} (listed : m ∈ shape.members) :
    m.type ∈ shape.uses := by
  cases shape with
  | record => exact List.mem_map_of_mem listed
  | variant => exact List.mem_map_of_mem listed
  | _ => cases listed

def Shape.IsUnion (shape : Shape) : Prop := ∃ tag variants, shape = .union tag variants

def Shape.IsVariantOf (shape : Shape) (parent : Nat) : Prop :=
  ∃ tagValue members additional, shape = .variant parent tagValue members additional

namespace Catalog

/-- The numbers that uses may name: those of the root and the definitions, and those of the
declarations made so far. -/
def Known (schema : Schema) (next count id : Nat) : Prop :=
  id ≤ schema.definitions.length ∨ (next ≤ id ∧ id < next + count)

/-- Declarations made from a first free number on, with the uses made beside them. The unions that
are `pending` are declared outside of them. -/
structure Made (schema : Schema) (next : Nat) (uses : List TypeUse) (pending : Nat → Prop)
    (ds : List Declaration) : Prop where
  ids : ds.map Declaration.id = List.range' next ds.length
  own : ∀ use ∈ uses, ∀ id, use.innermost? = some id → Known schema next ds.length id
  inner : ∀ d ∈ ds, ∀ use ∈ d.shape.uses, ∀ id, use.innermost? = some id →
    Known schema next ds.length id
  parents : ∀ d ∈ ds, ∀ parent, d.shape.IsVariantOf parent →
    pending parent ∨ ∃ u ∈ ds, u.id = parent ∧ u.shape.IsUnion
  variants : ∀ u ∈ ds, ∀ tag variants, u.shape = .union tag variants →
    ∀ v ∈ variants, ∃ d ∈ ds, d.id = v ∧ d.shape.IsVariantOf u.id

/-- A shape for the declaration `id`, with the declarations nested in it. -/
structure MadeShape (schema : Schema) (id next : Nat) (shape : Shape) (ds : List Declaration) :
    Prop where
  made : Made schema next shape.uses (fun parent => parent = id ∧ shape.IsUnion) ds
  variants : ∀ tag variants, shape = .union tag variants →
    ∀ v ∈ variants, ∃ d ∈ ds, d.id = v ∧ d.shape.IsVariantOf id
  noVariant : ∀ parent, ¬ shape.IsVariantOf parent

section Parts

variable {schema : Schema} {next : Nat} {pending : Nat → Prop}

theorem Made.nil : Made schema next [] pending [] := by
  constructor <;> simp

theorem Made.append {uses more : List TypeUse} {ds es : List Declaration}
    (first : Made schema next uses pending ds)
    (second : Made schema (next + ds.length) more pending es) :
    Made schema next (uses ++ more) pending (ds ++ es) := by
  have wider {id : Nat} (known : Known schema next ds.length id) :
      Known schema next (ds ++ es).length id := by
    simp only [Known, List.length_append] at known ⊢
    omega
  have later {id : Nat} (known : Known schema (next + ds.length) es.length id) :
      Known schema next (ds ++ es).length id := by
    simp only [Known, List.length_append] at known ⊢
    omega
  constructor
  case ids =>
    rw [List.map_append, first.ids, second.ids, List.length_append, List.range'_append_1]
  case own =>
    intro use member id same
    rcases List.mem_append.1 member with member | member
    · exact wider (first.own use member id same)
    · exact later (second.own use member id same)
  case inner =>
    intro d inside use member id same
    rcases List.mem_append.1 inside with inside | inside
    · exact wider (first.inner d inside use member id same)
    · exact later (second.inner d inside use member id same)
  case parents =>
    intro d inside parent variant
    rcases List.mem_append.1 inside with inside | inside
    · refine (first.parents d inside parent variant).imp id ?_
      rintro ⟨u, inside, same⟩
      exact ⟨u, List.mem_append_left _ inside, same⟩
    · refine (second.parents d inside parent variant).imp id ?_
      rintro ⟨u, inside, same⟩
      exact ⟨u, List.mem_append_right _ inside, same⟩
  case variants =>
    intro u inside tag variants union v member
    rcases List.mem_append.1 inside with inside | inside
    · obtain ⟨d, inside, same⟩ := first.variants u inside tag variants union v member
      exact ⟨d, List.mem_append_left _ inside, same⟩
    · obtain ⟨d, inside, same⟩ := second.variants u inside tag variants union v member
      exact ⟨d, List.mem_append_right _ inside, same⟩

/-- A declaration closes what was pending for its own number. -/
theorem Made.declare {d : Declaration} {ds : List Declaration} (own : d.id = next)
    (made : Made schema (next + 1) d.shape.uses
      (fun parent => pending parent ∨ (parent = next ∧ d.shape.IsUnion)) ds)
    (parents : ∀ parent, d.shape.IsVariantOf parent → pending parent)
    (variants : ∀ tag variants, d.shape = .union tag variants →
      ∀ v ∈ variants, ∃ e ∈ ds, e.id = v ∧ e.shape.IsVariantOf next) :
    Made schema next [] pending (d :: ds) := by
  have wider {id : Nat} (known : Known schema (next + 1) ds.length id) :
      Known schema next (d :: ds).length id := by
    simp only [Known, List.length_cons] at known ⊢
    omega
  constructor
  case ids => rw [List.map_cons, made.ids, own, List.length_cons, List.range'_succ]
  case own => simp
  case inner =>
    intro e inside use member id same
    rcases List.mem_cons.1 inside with rfl | inside
    · exact wider (made.own use member id same)
    · exact wider (made.inner e inside use member id same)
  case parents =>
    intro e inside parent variant
    rcases List.mem_cons.1 inside with rfl | inside
    · exact .inl (parents parent variant)
    · rcases made.parents e inside parent variant with (open' | ⟨rfl, union⟩) | ⟨u, inside, same⟩
      · exact .inl open'
      · exact .inr ⟨d, List.mem_cons_self, own, union⟩
      · exact .inr ⟨u, List.mem_cons_of_mem _ inside, same⟩
  case variants =>
    intro u inside tag vs union v member
    rcases List.mem_cons.1 inside with rfl | inside
    · obtain ⟨e, inside, same⟩ := variants tag vs union v member
      exact ⟨e, List.mem_cons_of_mem _ inside, own ▸ same⟩
    · obtain ⟨e, inside, same⟩ := made.variants u inside tag vs union v member
      exact ⟨e, List.mem_cons_of_mem _ inside, same⟩

theorem Made.mono {uses : List TypeUse} {ds : List Declaration} {other : Nat → Prop}
    (made : Made schema next uses pending ds) (weaker : ∀ parent, pending parent → other parent) :
    Made schema next uses other ds :=
  { made with parents := fun d inside parent variant =>
      (made.parents d inside parent variant).imp (weaker parent) id }

theorem Made.withUses {uses more : List TypeUse} {ds : List Declaration}
    (made : Made schema next uses pending ds)
    (own : ∀ use ∈ more, ∀ id, use.innermost? = some id → Known schema next ds.length id) :
    Made schema next more pending ds :=
  { made with own := own }

end Parts

theorem definitionId?_le {schema : Schema} {name : String} {id : Nat}
    (found : definitionId? schema name = some id) : id ≤ schema.definitions.length := by
  simp only [definitionId?, Option.map_eq_some_iff] at found
  obtain ⟨index, found, rfl⟩ := found
  obtain ⟨inside, -⟩ := List.findIdx?_eq_some_iff_getElem.1 found
  exact inside

theorem made_useOf_of_shape {schema : Schema} {owner next : Nat} {path : List String}
    {here : Pointer} {form : Form} {nullable : Bool} {metadata : Metadata} {shape : Shape}
    {nested : List Declaration}
    (found : shapeOf? schema next (next + 1) path here form metadata = some (shape, nested))
    (shaped : MadeShape schema next (next + 1) shape nested) :
    Made schema next [(useOf schema owner next path here ⟨form, nullable, metadata⟩).1]
      (fun _ => False) (useOf schema owner next path here ⟨form, nullable, metadata⟩).2 := by
  unfold useOf
  rw [found]
  have made : Made schema next [] (fun _ => False)
      (⟨next, path, shape, metadata, nullable, some owner, here⟩ :: nested) :=
    Made.declare rfl (shaped.made.mono fun _ => Or.inr) (fun parent => shaped.noVariant parent)
      shaped.variants
  refine made.withUses ?_
  simp only [List.mem_singleton, forall_eq, TypeUse.innermost?, Option.some.injEq, forall_eq',
    Known, List.length_cons]
  omega

theorem Made.plain {schema : Schema} {next : Nat} (use : TypeUse)
    (known : ∀ id, use.innermost? = some id → Known schema next 0 id) :
    Made schema next [use] (fun _ => False) [] :=
  Made.nil.withUses (by simpa using known)

mutual
theorem made_useOf (schema : Schema) (owner next : Nat) (path : List String) (here : Pointer)
    (node : Node) :
    Made schema next [(useOf schema owner next path here node).1] (fun _ => False)
      (useOf schema owner next path here node).2 := by
  obtain ⟨form, nullable, metadata⟩ := node
  cases found : shapeOf? schema next (next + 1) path here form metadata with
  | some result =>
    exact made_useOf_of_shape found
      (madeShape_of_shapeOf? schema next (next + 1) path here form metadata _ _ found)
  | none =>
    unfold useOf
    rw [found]
    cases form with
    | type primitive => exact .plain _ (by simp [TypeUse.innermost?])
    | ref name =>
      refine .plain _ fun id same => ?_
      cases found : definitionId? schema name with
      | none => simp [found, TypeUse.innermost?] at same
      | some target =>
        simp only [found, TypeUse.innermost?, Option.some.injEq] at same
        exact .inl (same ▸ definitionId?_le found)
    | elements item =>
      have made := made_useOf schema owner next path (here.child "elements") item
      exact made.withUses (by simpa [TypeUse.innermost?] using made.own)
    | values item =>
      have made := made_useOf schema owner next path (here.child "values") item
      exact made.withUses (by simpa [TypeUse.innermost?] using made.own)
    | _ => exact .plain _ (by simp [TypeUse.innermost?])
termination_by node.size
decreasing_by all_goals simp only [Node.size, Form.size]; omega

theorem madeShape_of_shapeOf? (schema : Schema) (id next : Nat) (path : List String)
    (here : Pointer) (form : Form) (metadata : Metadata) (shape : Shape) (ds : List Declaration) :
    shapeOf? schema id next path here form metadata = some (shape, ds) →
      MadeShape schema id next shape ds := by
  unfold shapeOf?
  cases form with
  | enum values =>
    intro found
    cases found
    exact ⟨.nil, by simp, by simp [Shape.IsVariantOf]⟩
  | properties required optional additional =>
    intro found
    cases found
    have made := made_membersOf schema id next path here (merge required optional)
    exact ⟨made.mono fun _ => False.elim, by simp, by simp [Shape.IsVariantOf]⟩
  | discriminator tag mapping =>
    intro found
    cases found
    obtain ⟨made, variants⟩ := made_variantsOf schema id next path here mapping
    -- The union is declared after its variants were made, so it is still pending here.
    refine ⟨made.mono fun parent same => ⟨same, tag, _, rfl⟩, ?_, by simp [Shape.IsVariantOf]⟩
    intro _ _ same
    cases same
    exact variants
  | _ => exact fun found => nomatch found
termination_by form.size
decreasing_by all_goals simp only [Form.size, propertiesSize_merge]; omega

theorem made_membersOf (schema : Schema) (owner next : Nat) (path : List String) (here : Pointer)
    (properties : List Property) :
    Made schema next ((membersOf schema owner next path here properties).1.map Member.type)
      (fun _ => False) (membersOf schema owner next path here properties).2 := by
  match properties with
  | [] =>
    rw [membersOf]
    exact .nil
  | p :: rest =>
    rw [membersOf]
    have first := made_useOf schema owner next (path ++ [p.name])
      (here.descend [p.keyword, p.name]) p.node
    exact first.append (made_membersOf schema owner _ path here rest)
termination_by propertiesSize properties
decreasing_by all_goals simp only [propertiesSize]; omega

theorem made_variantsOf (schema : Schema) (parent next : Nat) (path : List String) (here : Pointer)
    (entries : List (String × Node)) :
    Made schema next [] (· = parent) (variantsOf schema parent next path here entries).2 ∧
      ∀ v ∈ (variantsOf schema parent next path here entries).1,
        ∃ d ∈ (variantsOf schema parent next path here entries).2,
          d.id = v ∧ d.shape.IsVariantOf parent := by
  match entries with
  | [] =>
    rw [variantsOf]
    exact ⟨.nil, by simp⟩
  | (tagValue, .mk (.properties required optional additional) _ metadata) :: rest =>
    rw [variantsOf]
    generalize result : membersOf schema next (next + 1) (path ++ [tagValue])
      (here.descend ["mapping", tagValue]) (merge required optional) = made
    obtain ⟨members, nested⟩ := made
    have inner := made_membersOf schema next (next + 1) (path ++ [tagValue])
      (here.descend ["mapping", tagValue]) (merge required optional)
    rw [result] at inner
    obtain ⟨more, variants⟩ :=
      made_variantsOf schema parent (next + 1 + nested.length) path here rest
    have first : Made schema next [] (· = parent)
        (⟨next, path ++ [tagValue], .variant parent tagValue members additional, metadata, false,
          some parent, here.descend ["mapping", tagValue]⟩ :: nested) :=
      Made.declare rfl (inner.mono fun _ => False.elim)
        (by simp [Shape.IsVariantOf]) (by simp)
    have place : next + 1 + nested.length = next + (nested.length + 1) := by omega
    simp only [place] at more variants ⊢
    refine ⟨first.append more, fun v member => ?_⟩
    rcases List.mem_cons.1 member with rfl | member
    · exact ⟨_, List.mem_append_left _ List.mem_cons_self, rfl, tagValue, members, additional, rfl⟩
    · obtain ⟨d, inside, same⟩ := variants v member
      exact ⟨d, List.mem_append_right _ inside, same⟩
  | (_, .mk .empty _ _) :: rest | (_, .mk (.ref _) _ _) :: rest | (_, .mk (.type _) _ _) :: rest
  | (_, .mk (.enum _) _ _) :: rest | (_, .mk (.elements _) _ _) :: rest
  | (_, .mk (.values _) _ _) :: rest | (_, .mk (.discriminator _ _) _ _) :: rest =>
    rw [variantsOf]
    · exact made_variantsOf schema parent next path here rest
    · simp
termination_by entriesSize entries
decreasing_by
  all_goals simp only [entriesSize, Node.size, Form.size, propertiesSize_merge]; omega
end

theorem madeShape_topLevel (schema : Schema) (id next : Nat) (name : String) (here : Pointer)
    (node : Node) :
    (topLevel schema id next name here node).1.id = id ∧
      MadeShape schema id next (topLevel schema id next name here node).1.shape
        (topLevel schema id next name here node).2 := by
  unfold topLevel
  cases found : shapeOf? schema id next [name] here node.form node.metadata with
  | some result =>
    exact ⟨rfl, madeShape_of_shapeOf? schema id next [name] here node.form node.metadata _ _ found⟩
  | none =>
    have made := made_useOf schema id next [name] here node
    exact ⟨rfl, made.mono fun _ => False.elim, by simp, by simp [Shape.IsVariantOf]⟩

/-- Top-level declarations, and what is nested in them. -/
structure MadeTop (schema : Schema) (id next : Nat) (tops nested : List Declaration) : Prop where
  ids : tops.map Declaration.id = List.range' id tops.length
  made : Made schema next (tops.flatMap (·.shape.uses))
    (fun parent => ∃ u ∈ tops, u.id = parent ∧ u.shape.IsUnion) nested
  variants : ∀ u ∈ tops, ∀ tag variants, u.shape = .union tag variants →
    ∀ v ∈ variants, ∃ d ∈ nested, d.id = v ∧ d.shape.IsVariantOf u.id
  noVariant : ∀ d ∈ tops, ∀ parent, ¬ d.shape.IsVariantOf parent

theorem madeTop_topLevels (schema : Schema) (id next : Nat)
    (entries : List (String × Pointer × Node)) :
    (topLevels schema id next entries).1.length = entries.length ∧
      MadeTop schema id next (topLevels schema id next entries).1
        (topLevels schema id next entries).2 := by
  induction entries generalizing id next with
  | nil => exact ⟨rfl, rfl, .nil, by simp [topLevels], by simp [topLevels]⟩
  | cons entry rest ih =>
    obtain ⟨name, here, node⟩ := entry
    obtain ⟨own, first⟩ := madeShape_topLevel schema id next name here node
    cases made : topLevel schema id next name here node with
    | mk d nested =>
    obtain ⟨count, later⟩ := ih (id + 1) (next + nested.length)
    cases others : topLevels schema (id + 1) (next + nested.length) rest with
    | mk tops more =>
    have step : topLevels schema id next ((name, here, node) :: rest) =
        (d :: tops, nested ++ more) := by
      simp only [topLevels, made, others]
    rw [made] at own first
    rw [others] at count later
    rw [step]
    dsimp only at own first count later ⊢
    refine ⟨by simpa using count, ?_⟩
    constructor
    case ids =>
      simp only [List.map_cons, List.length_cons, List.range'_succ]
      rw [own, later.ids]
    case made =>
      refine (first.made.mono ?_).append (later.made.mono ?_)
      · rintro parent ⟨rfl, union⟩
        exact ⟨d, List.mem_cons_self, own, union⟩
      · rintro parent ⟨u, inside, same⟩
        exact ⟨u, List.mem_cons_of_mem _ inside, same⟩
    case variants =>
      intro u inside tag variants union v member
      rcases List.mem_cons.1 inside with rfl | inside
      · obtain ⟨e, inside, same⟩ := first.variants tag variants union v member
        exact ⟨e, List.mem_append_left _ inside, own ▸ same⟩
      · obtain ⟨e, inside, same⟩ := later.variants u inside tag variants union v member
        exact ⟨e, List.mem_append_right _ inside, same⟩
    case noVariant =>
      intro e inside
      rcases List.mem_cons.1 inside with rfl | inside
      · exact first.noVariant
      · exact later.noVariant e inside

/-- What the numbers of a catalog promise. -/
structure Linked (catalog : Catalog) : Prop where
  ids : ∀ i d, catalog.declaration? i = some d → d.id = i
  uses : ∀ d ∈ catalog.declarations, ∀ use ∈ d.shape.uses, ∀ id, use.innermost? = some id →
    id < catalog.size
  parents : ∀ d ∈ catalog.declarations, ∀ parent, d.shape.IsVariantOf parent →
    ∃ shape, catalog.shape? parent = some shape ∧ shape.IsUnion
  variants : ∀ u ∈ catalog.declarations, ∀ tag variants, u.shape = .union tag variants →
    ∀ v ∈ variants, ∃ shape, catalog.shape? v = some shape ∧ shape.IsVariantOf u.id

section Numbered

variable {ds : List Declaration} (ids : ds.map Declaration.id = List.range ds.length)
include ids

theorem id_of_getElem? {i : Nat} {d : Declaration} (found : ds[i]? = some d) : d.id = i := by
  obtain ⟨bound, -⟩ := List.getElem?_eq_some_iff.1 found
  have own : (ds.map Declaration.id)[i]? = some i := by rw [ids, List.getElem?_range bound]
  rw [List.getElem?_map, found] at own
  exact Option.some.inj own

theorem getElem?_id {d : Declaration} (inside : d ∈ ds) : ds[d.id]? = some d := by
  obtain ⟨i, found⟩ := List.mem_iff_getElem?.1 inside
  rw [id_of_getElem? ids found, found]

end Numbered

/-- The names, pointers and nodes that the top-level declarations are made from. -/
def topEntries (schema : Schema) (rootName : String) : List (String × Pointer × Node) :=
  (rootName, .root, schema.root) :: schema.definitions.map
    (fun d => (d.1, Pointer.root.descend ["definitions", d.1], d.2))

theorem ofSchema_eq (schema : Schema) (rootName : String) :
    ofSchema schema rootName =
      ⟨(topLevels schema 0 (schema.definitions.length + 1) (topEntries schema rootName)).1 ++
          (topLevels schema 0 (schema.definitions.length + 1) (topEntries schema rootName)).2,
        (Keyed.keys schema.definitions).zipIdx 1⟩ :=
  rfl

theorem length_topEntries (schema : Schema) (rootName : String) :
    (topEntries schema rootName).length = schema.definitions.length + 1 := by
  rw [topEntries, List.length_cons, List.length_map]

/-- Every catalog that is made from a schema keeps its promise. -/
theorem linked_ofSchema (schema : Schema) (rootName : String) :
    Linked (ofSchema schema rootName) := by
  obtain ⟨count, top⟩ := madeTop_topLevels schema 0 (schema.definitions.length + 1)
    (topEntries schema rootName)
  rw [ofSchema_eq]
  cases made : topLevels schema 0 (schema.definitions.length + 1) (topEntries schema rootName) with
  | mk tops nested =>
  rw [made] at count top
  dsimp only at top ⊢
  rw [length_topEntries] at count
  have ids : (tops ++ nested).map Declaration.id = List.range (tops ++ nested).length := by
    rw [List.map_append, top.ids, top.made.ids, List.length_append, List.range_eq_range',
      ← count, ← List.range'_append_1, Nat.zero_add]
  have shape_of {d : Declaration} (inside : d ∈ tops ++ nested) :
      Catalog.shape? ⟨tops ++ nested, (Keyed.keys schema.definitions).zipIdx 1⟩ d.id =
        some d.shape := by
    simp only [shape?, declaration?, getElem?_id ids inside, Option.map_some]
  constructor
  case ids => exact fun i d found => id_of_getElem? ids found
  case uses =>
    intro d inside use member id same
    have known : Known schema (schema.definitions.length + 1) nested.length id := by
      rcases List.mem_append.1 inside with inside | inside
      · exact top.made.own use (List.mem_flatMap.2 ⟨d, inside, member⟩) id same
      · exact top.made.inner d inside use member id same
    simp only [Known, size, List.length_append, count] at known ⊢
    omega
  case parents =>
    intro d inside parent variant
    rcases List.mem_append.1 inside with inside | inside
    · exact (top.noVariant d inside parent variant).elim
    · rcases top.made.parents d inside parent variant with
        ⟨u, inside, rfl, union⟩ | ⟨u, inside, rfl, union⟩
      · exact ⟨u.shape, shape_of (List.mem_append_left _ inside), union⟩
      · exact ⟨u.shape, shape_of (List.mem_append_right _ inside), union⟩
  case variants =>
    intro u inside tag variants union v member
    have found : ∃ d ∈ nested, d.id = v ∧ d.shape.IsVariantOf u.id := by
      rcases List.mem_append.1 inside with inside | inside
      · exact top.variants u inside tag variants union v member
      · exact top.made.variants u inside tag variants union v member
    obtain ⟨d, inside, rfl, variant⟩ := found
    exact ⟨d.shape, shape_of (List.mem_append_right _ inside), variant⟩

end Catalog

end SchemaBindings
