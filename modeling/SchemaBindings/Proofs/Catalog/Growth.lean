import SchemaBindings.Proofs.Catalog.Described

/-! A catalog tells all of the schema it is made from. This is the only look at how declarations are
made: all that is said of a catalog follows from what it tells. -/

namespace SchemaBindings.Catalog

open Keyed (keys)
open Schema (Contains Regular)

section StandsAt

variable {α : Type}

/-- The items stand in a list from a position on. -/
def StandsAt (all : List α) (next : Nat) : List α → Prop
  | [] => True
  | a :: rest => all[next]? = some a ∧ StandsAt all (next + 1) rest

theorem standsAt_append {all : List α} {next : Nat} {first second : List α} :
    StandsAt all next (first ++ second) ↔
      StandsAt all next first ∧ StandsAt all (next + first.length) second := by
  induction first generalizing next with
  | nil => simp [StandsAt]
  | cons a rest ih =>
    have place : next + (a :: rest).length = next + 1 + rest.length := by
      simp only [List.length_cons]
      omega
    simp only [List.cons_append, StandsAt, ih, place, and_assoc]

theorem standsAt_length (before part : List α) : StandsAt (before ++ part) before.length part := by
  induction part generalizing before with
  | nil => trivial
  | cons a rest ih =>
    refine ⟨by simp, ?_⟩
    simpa using ih (before ++ [a])

end StandsAt

/-- Declarations made for places. What hangs on none of them hangs on something outside. -/
structure Grown (schema : Schema) (all places : List Place) (outside : Declaration → Prop)
    (ds : List Declaration) : Prop where
  described : List.Forall₂ (Describes schema all) places ds
  nested : ∀ d ∈ ds, outside d ∨ ∃ owner ∈ ds, NestedIn owner d

section Parts

variable {schema : Schema} {all places : List Place} {outside : Declaration → Prop}

theorem Grown.nil : Grown schema all [] outside [] := ⟨.nil, by simp⟩

theorem Grown.length_eq {ds : List Declaration} (grown : Grown schema all places outside ds) :
    places.length = ds.length :=
  grown.described.length_eq

theorem Grown.append {more : List Place} {ds es : List Declaration}
    (first : Grown schema all places outside ds) (second : Grown schema all more outside es) :
    Grown schema all (places ++ more) outside (ds ++ es) := by
  constructor
  case described => exact List.rel_append first.described second.described
  case nested =>
    intro d inside
    rcases List.mem_append.1 inside with inside | inside
    · refine (first.nested d inside).imp id ?_
      rintro ⟨owner, inside, nested⟩
      exact ⟨owner, List.mem_append_left _ inside, nested⟩
    · refine (second.nested d inside).imp id ?_
      rintro ⟨owner, inside, nested⟩
      exact ⟨owner, List.mem_append_right _ inside, nested⟩

/-- A declaration takes in what hangs on it. -/
theorem Grown.declare {place : Place} {d : Declaration} {ds : List Declaration}
    (describes : Describes schema all place d)
    (grown : Grown schema all places
      (fun e => e.owner = some d.id ∧ Hangs d.id d.path d.shape e) ds)
    (later : ∀ e ∈ ds, d.id < e.id) (own : outside d) :
    Grown schema all (place :: places) outside (d :: ds) := by
  constructor
  case described => exact .cons describes grown.described
  case nested =>
    intro e inside
    rcases List.mem_cons.1 inside with rfl | inside
    · exact .inl own
    · right
      rcases grown.nested e inside with ⟨owned, hangs⟩ | ⟨owner, member, nested⟩
      · exact ⟨d, List.mem_cons_self, owned, later e inside, hangs⟩
      · exact ⟨owner, List.mem_cons_of_mem _ member, nested⟩

theorem Grown.mono {ds : List Declaration} {other : Declaration → Prop}
    (grown : Grown schema all places outside ds) (weaker : ∀ d ∈ ds, outside d → other d) :
    Grown schema all places other ds :=
  ⟨grown.described, fun d inside => (grown.nested d inside).imp (weaker d inside) id⟩

theorem le_id_of_mem {next : Nat} {ds : List Declaration}
    (ids : ds.map Declaration.id = List.range' next ds.length) {d : Declaration} (inside : d ∈ ds) :
    next ≤ d.id := by
  have member : d.id ∈ List.range' next ds.length := ids ▸ List.mem_map_of_mem inside
  exact (List.mem_range'_1.1 member).1

end Parts

/-- The place itself, when its node is nameable. -/
def Place.ifNameable (place : Place) : List Place := if place.node.isNameable then [place] else []

theorem size_eq_size_form (node : Node) : node.size = node.form.size + 1 := by
  obtain ⟨form, nullable, metadata⟩ := node
  rfl

theorem declaredAmong_nil (place : Place) : declaredAmong place [] = [] := by
  rw [declaredAmong, placesBelow, List.filter_nil]

theorem declaredBelow_eq_nil {place : Place} (none : stepsOf place.node.form = []) :
    place.declaredBelow = [] := by
  rw [Place.declaredBelow, none, declaredAmong_nil]

theorem declaredAmong_cons (place : Place) {step : Step} (plain : ∀ t, step ≠ .variant t)
    (node : Node) (rest : List (Step × Node)) :
    declaredAmong place ((step, node) :: rest) =
      ((place.down step node).ifNameable ++ (place.down step node).declaredBelow) ++
        declaredAmong place rest := by
  have declared : (place.down step node).isDeclared = node.isNameable := by
    cases step with
    | variant t => exact (plain t rfl).elim
    | _ => rfl
  rw [declaredAmong, placesBelow_cons, List.filter_cons, declared, List.filter_append,
    Place.ifNameable]
  cases nameable : node.isNameable <;> simp [Place.down, nameable] <;> rfl

theorem declaredAmong_cons_variant (place : Place) (tagValue : String) (node : Node)
    (rest : List (Step × Node)) :
    declaredAmong place ((.variant tagValue, node) :: rest) =
      place.down (.variant tagValue) node ::
        ((place.down (.variant tagValue) node).declaredBelow ++ declaredAmong place rest) := by
  rw [declaredAmong, placesBelow_cons, List.filter_cons_of_pos (by rfl), List.filter_append]
  rfl

theorem isNameable_eq_isSome_shapeOf? (schema : Schema) (id next : Nat) (path : List String)
    (here : Pointer) (node : Node) :
    node.isNameable = (shapeOf? schema id next path here node.form node.metadata).isSome := by
  unfold shapeOf? Node.isNameable
  cases node.form <;> rfl

/-- The use holds the declaration, and `owner` owns it. -/
def HeldBy (owner : Nat) (path : List String) (use : TypeUse) (d : Declaration) : Prop :=
  d.owner = some owner ∧ use.innermost? = some d.id ∧ d.path = path ∧
    ∀ parent, ¬ d.shape.IsVariantOf parent

section Uses

variable {schema : Schema} {owner next : Nat} {path : List String} {here : Pointer} {node : Node}

theorem useOf_nameable {shape : Shape} {nested : List Declaration}
    (found : shapeOf? schema next (next + 1) path here node.form node.metadata =
      some (shape, nested)) :
    useOf schema owner next path here node =
      (⟨.declared next, node.nullable, node.metadata, here⟩,
        ⟨next, path, shape, node.metadata, node.nullable, some owner, here⟩ :: nested) := by
  obtain ⟨form, nullable, metadata⟩ := node
  simp only [Node.form, Node.metadata] at found
  unfold useOf
  rw [found]
  rfl

theorem useOf_empty (form : node.form = .empty) :
    useOf schema owner next path here node =
      (⟨.anything, node.nullable, node.metadata, here⟩, []) := by
  obtain ⟨_, nullable, metadata⟩ := node
  cases form
  unfold useOf shapeOf?
  rfl

theorem useOf_type {primitive : Primitive} (form : node.form = .type primitive) :
    useOf schema owner next path here node =
      (⟨.primitive primitive, node.nullable, node.metadata, here⟩, []) := by
  obtain ⟨_, nullable, metadata⟩ := node
  cases form
  unfold useOf shapeOf?
  rfl

theorem useOf_ref {name : String} {id : Nat} (form : node.form = .ref name)
    (found : definitionId? schema name = some id) :
    useOf schema owner next path here node =
      (⟨.declared id, node.nullable || targetNullable schema name, node.metadata, here⟩, []) := by
  obtain ⟨_, nullable, metadata⟩ := node
  cases form
  unfold useOf shapeOf?
  simp only [found]
  rfl

theorem useOf_elements {item : Node} (form : node.form = .elements item) :
    useOf schema owner next path here node =
      (⟨.elements (useOf schema owner next path (here.child "elements") item).1, node.nullable,
          node.metadata, here⟩,
        (useOf schema owner next path (here.child "elements") item).2) := by
  obtain ⟨_, nullable, metadata⟩ := node
  cases form
  conv_lhs => unfold useOf shapeOf?
  rfl

theorem useOf_values {item : Node} (form : node.form = .values item) :
    useOf schema owner next path here node =
      (⟨.values (useOf schema owner next path (here.child "values") item).1, node.nullable,
          node.metadata, here⟩,
        (useOf schema owner next path (here.child "values") item).2) := by
  obtain ⟨_, nullable, metadata⟩ := node
  cases form
  conv_lhs => unfold useOf shapeOf?
  rfl

/-- An entry with properties becomes the declaration of a variant. -/
theorem variantsOf_cons {parent : Nat} {tagValue : String} {rest : List (String × Node)}
    {required optional : List (String × Node)} {additional : Bool}
    (form : node.form = .properties required optional additional) {members : List Member}
    {nested : List Declaration}
    (made : membersOf schema next (next + 1) (path ++ [tagValue])
      (here.descend ["mapping", tagValue]) (merge required optional) = (members, nested)) :
    variantsOf schema parent next path here ((tagValue, node) :: rest) =
      (next :: (variantsOf schema parent (next + 1 + nested.length) path here rest).1,
        ⟨next, path ++ [tagValue], .variant parent tagValue members additional, node.metadata,
          false, some parent, here.descend ["mapping", tagValue]⟩ ::
          (nested ++ (variantsOf schema parent (next + 1 + nested.length) path here rest).2)) := by
  obtain ⟨_, nullable, metadata⟩ := node
  cases form
  rw [variantsOf, made]
  rfl

end Uses

theorem exists_definitionId? {schema : Schema} {name : String}
    (known : name ∈ keys schema.definitions) : ∃ id, definitionId? schema name = some id := by
  obtain ⟨value, member⟩ := Keyed.mem_keys.1 known
  rw [← Option.isSome_iff_exists]
  simp only [definitionId?, Option.isSome_map, List.findIdx?_isSome, List.any_eq_true, beq_iff_eq]
  exact ⟨_, member, rfl⟩

theorem contains_of_mem_merge {schema : Schema} {node : Node} (within : Contains schema node)
    {required optional : List (String × Node)} {additional : Bool}
    (form : node.form = .properties required optional additional) :
    ∀ p ∈ merge required optional, Contains schema p.node := by
  intro p member
  rw [mem_merge] at member
  split at member
  · exact .child within (.required form member)
  · exact .child within (.optional form member)

section Growing

variable {schema : Schema} {all : List Place}

mutual
theorem grown_useOf (regular : Regular schema) {first next : Nat} (bound : first ≤ next)
    (owner : Nat) (place : Place) (within : Contains schema place.node)
    (plain : ∀ tagValue, place.step ≠ some (.variant tagValue))
    (stands : StandsAt all next (place.ifNameable ++ place.declaredBelow)) :
    Means schema all first place
        (useOf schema owner next place.path place.pointer place.node).1 ∧
      Grown schema all (place.ifNameable ++ place.declaredBelow)
        (HeldBy owner place.path (useOf schema owner next place.path place.pointer place.node).1)
        (useOf schema owner next place.path place.pointer place.node).2 := by
  have nameable := isNameable_eq_isSome_shapeOf? schema next (next + 1) place.path place.pointer
    place.node
  cases found : shapeOf? schema next (next + 1) place.path place.pointer place.node.form
    place.node.metadata with
  | some result =>
    obtain ⟨shape, nested⟩ := result
    rw [found, Option.isSome_some] at nameable
    have own : place.ifNameable = [place] := by rw [Place.ifNameable, if_pos nameable]
    rw [own, List.singleton_append] at stands ⊢
    obtain ⟨numbered, stands⟩ := stands
    obtain ⟨shaped, grown⟩ :=
      grown_shapeOf? regular (Nat.lt_succ_self next) place within found stands
    have made := (madeShape_of_shapeOf? schema next (next + 1) place.path place.pointer
      place.node.form place.node.metadata _ _ found).made
    rw [useOf_nameable found]
    refine ⟨.declared nameable bound numbered, Grown.declare ?_ grown ?_ ?_⟩
    · exact ⟨rfl, rfl, rfl, rfl, .own plain shaped⟩
    · exact fun e inside => le_id_of_mem made.ids inside
    · exact ⟨rfl, rfl, rfl, not_variant_of_shapeFor shaped⟩
  | none =>
    rw [found, Option.isSome_none] at nameable
    have own : place.ifNameable = [] := by rw [Place.ifNameable, if_neg (by simp [nameable])]
    rw [own, List.nil_append] at stands ⊢
    cases form : place.node.form with
    | empty =>
      rw [useOf_empty form, declaredBelow_eq_nil (by rw [form]; rfl)]
      exact ⟨.anything form, .nil⟩
    | type primitive =>
      rw [useOf_type form, declaredBelow_eq_nil (by rw [form]; rfl)]
      exact ⟨.primitive form, .nil⟩
    | ref name =>
      obtain ⟨id, known⟩ := exists_definitionId? (regular.refs _ within _ form)
      rw [useOf_ref form known, declaredBelow_eq_nil (by rw [form]; rfl)]
      exact ⟨.reference form known, .nil⟩
    | elements item =>
      rw [Place.declaredBelow, form, stepsOf, declaredAmong_cons place (by simp),
        declaredAmong_nil, List.append_nil] at stands ⊢
      rw [useOf_elements form]
      obtain ⟨means, grown⟩ := grown_useOf regular bound owner (place.down .element item)
        (.child within (.element form)) (by simp [Place.down]) stands
      exact ⟨.elements form means, grown⟩
    | values item =>
      rw [Place.declaredBelow, form, stepsOf, declaredAmong_cons place (by simp),
        declaredAmong_nil, List.append_nil] at stands ⊢
      rw [useOf_values form]
      obtain ⟨means, grown⟩ := grown_useOf regular bound owner (place.down .value item)
        (.child within (.value form)) (by simp [Place.down]) stands
      exact ⟨.values form means, grown⟩
    | _ => simp [Node.isNameable, form] at nameable
termination_by place.node.size
decreasing_by
  · simp only [size_eq_size_form place.node, form, Form.size, Place.down]; omega
  · simp only [size_eq_size_form place.node, form, Form.size, Place.down]; omega
  · simp only [size_eq_size_form place.node]; omega

theorem grown_shapeOf? (regular : Regular schema) {id next : Nat} (later : id < next)
    (place : Place) (within : Contains schema place.node) {shape : Shape} {ds : List Declaration}
    (found : shapeOf? schema id next place.path place.pointer place.node.form place.node.metadata =
      some (shape, ds))
    (stands : StandsAt all next place.declaredBelow) :
    ShapeFor schema all id place shape ∧
      Grown schema all place.declaredBelow
        (fun d => d.owner = some id ∧ Hangs id place.path shape d) ds := by
  cases form : place.node.form with
  | enum values =>
    rw [form, shapeOf?] at found
    cases found
    rw [declaredBelow_eq_nil (by rw [form]; rfl)]
    exact ⟨.enumeration form, .nil⟩
  | properties required optional additional =>
    rw [form, shapeOf?] at found
    cases found
    rw [Place.declaredBelow, form, stepsOf] at stands ⊢
    obtain ⟨members, grown⟩ :=
      grown_membersOf regular later id place _ (contains_of_mem_merge within form) stands
    refine ⟨.record form members, grown.mono ?_⟩
    rintro d - ⟨m, member, owned, use, own, other⟩
    exact ⟨owned, .member member use own other⟩
  | discriminator tag mapping =>
    rw [form, shapeOf?] at found
    cases found
    rw [Place.declaredBelow, form, stepsOf] at stands ⊢
    have inside : ∀ entry ∈ mapping, Contains schema entry.2 :=
      fun entry member => .child within (.variant form member)
    obtain ⟨variants, grown⟩ := grown_variantsOf regular later place _ inside
      ((regular.nodes _ within).mapping _ _ form).2 stands
    refine ⟨.union form variants, grown.mono ?_⟩
    rintro d - ⟨owned, member, tagValue, members, additional, parent, own⟩
    exact ⟨owned, .variant rfl member parent own⟩
  | _ => simp [form, shapeOf?] at found
termination_by place.node.form.size
decreasing_by all_goals simp only [form, Form.size, propertiesSize_merge]; omega

theorem grown_membersOf (regular : Regular schema) {first next : Nat} (bound : first ≤ next)
    (owner : Nat) (place : Place) (properties : List Property)
    (within : ∀ p ∈ properties, Contains schema p.node)
    (stands : StandsAt all next (declaredAmong place (propertySteps properties))) :
    List.Forall₂ (MemberFor schema all first place) properties
        (membersOf schema owner next place.path place.pointer properties).1 ∧
      Grown schema all (declaredAmong place (propertySteps properties))
        (fun d => ∃ m ∈ (membersOf schema owner next place.path place.pointer properties).1,
          HeldBy owner (place.path ++ [m.wireName]) m.type d)
        (membersOf schema owner next place.path place.pointer properties).2 := by
  match properties with
  | [] =>
    rw [membersOf, propertySteps, List.map_nil, declaredAmong_nil]
    exact ⟨.nil, .nil⟩
  | p :: rest =>
    rw [membersOf]
    rw [propertySteps, List.map_cons, ← propertySteps, declaredAmong_cons place (by simp)]
      at stands ⊢
    obtain ⟨first, later⟩ := List.forall_mem_cons.1 within
    obtain ⟨standsFirst, standsLater⟩ := standsAt_append.1 stands
    obtain ⟨means, grown⟩ := grown_useOf regular bound owner
      (place.down (.property p.name p.required) p.node) first (by simp [Place.down]) standsFirst
    rw [grown.length_eq] at standsLater
    obtain ⟨members, more⟩ :=
      grown_membersOf regular (Nat.le_add_right_of_le bound) owner place rest later standsLater
    refine ⟨.cons ⟨rfl, rfl, means⟩ members, (grown.mono ?_).append (more.mono ?_)⟩
    · exact fun d _ held => ⟨_, List.mem_cons_self, held⟩
    · rintro d - ⟨m, member, held⟩
      exact ⟨m, List.mem_cons_of_mem _ member, held⟩
termination_by propertiesSize properties
decreasing_by all_goals simp only [Place.down, propertiesSize]; omega

theorem grown_variantsOf (regular : Regular schema) {parent next : Nat} (later : parent < next)
    (place : Place) (entries : List (String × Node))
    (within : ∀ entry ∈ entries, Contains schema entry.2)
    (properties : ∀ entry ∈ entries, entry.2.nullable = false ∧
      ∃ required optional additional, entry.2.form = .properties required optional additional)
    (stands : StandsAt all next (declaredAmong place (variantSteps entries))) :
    List.Forall₂ (fun entry v =>
        parent < v ∧ all[v]? = some (place.down (.variant entry.1) entry.2)) entries
        (variantsOf schema parent next place.path place.pointer entries).1 ∧
      Grown schema all (declaredAmong place (variantSteps entries))
        (fun d => d.owner = some parent ∧
          d.id ∈ (variantsOf schema parent next place.path place.pointer entries).1 ∧
          ∃ tagValue members additional,
            d.shape = .variant parent tagValue members additional ∧
              d.path = place.path ++ [tagValue])
        (variantsOf schema parent next place.path place.pointer entries).2 := by
  match entries with
  | [] =>
    rw [variantsOf, variantSteps, List.map_nil, declaredAmong_nil]
    exact ⟨.nil, .nil⟩
  | (tagValue, node) :: rest =>
    obtain ⟨⟨nullable, required, optional, additional, form⟩, properties⟩ :=
      List.forall_mem_cons.1 properties
    obtain ⟨first, others⟩ := List.forall_mem_cons.1 within
    rw [variantSteps, List.map_cons, ← variantSteps, declaredAmong_cons_variant] at stands ⊢
    obtain ⟨numbered, stands⟩ := stands
    obtain ⟨standsFirst, standsLater⟩ := standsAt_append.1 stands
    have below : (place.down (.variant tagValue) node).declaredBelow =
        declaredAmong (place.down (.variant tagValue) node)
          (propertySteps (merge required optional)) := by
      rw [Place.declaredBelow, Place.down, form, stepsOf]
    have result := grown_membersOf regular (Nat.le_refl (next + 1)) next
      (place.down (.variant tagValue) node) _ (contains_of_mem_merge first form)
      (below ▸ standsFirst)
    have ids := (made_membersOf schema next (next + 1) (place.down (.variant tagValue) node).path
      (place.down (.variant tagValue) node).pointer (merge required optional)).ids
    cases made : membersOf schema next (next + 1) (place.down (.variant tagValue) node).path
      (place.down (.variant tagValue) node).pointer (merge required optional) with
    | mk members nested =>
    rw [made, ← below] at result
    rw [made] at ids
    obtain ⟨memberFor, grown⟩ := result
    rw [grown.length_eq] at standsLater
    obtain ⟨variants, more⟩ := grown_variantsOf regular (Nat.lt_add_right nested.length
      (Nat.lt_succ_of_lt later)) place rest others properties standsLater
    rw [variantsOf_cons form made]
    refine ⟨.cons ⟨later, numbered⟩ variants, ?_⟩
    rw [← List.cons_append, ← List.cons_append]
    refine Grown.append (Grown.declare ?_ (grown.mono ?_) ?_ ?_) (more.mono ?_)
    · exact ⟨rfl, rfl, rfl, nullable.symm, .variant rfl (.record form memberFor)⟩
    · rintro d - ⟨m, member, owned, use, own, other⟩
      exact ⟨owned, .member member use own other⟩
    · exact fun e inside => le_id_of_mem ids inside
    · exact ⟨rfl, List.mem_cons_self, tagValue, members, additional, rfl, rfl⟩
    · rintro d - ⟨owned, member, same⟩
      exact ⟨owned, List.mem_cons_of_mem _ member, same⟩
termination_by entriesSize entries
decreasing_by
  all_goals simp only [entriesSize, size_eq_size_form node, form, Form.size, propertiesSize_merge]
  all_goals omega
end

/-- The place that a top-level declaration is made for. -/
def topPlace (entry : String × Pointer × Node) : Place :=
  ⟨none, [entry.1], entry.2.1, entry.2.2⟩

theorem grown_topLevel (regular : Regular schema) {id next : Nat} (later : id < next)
    (entry : String × Pointer × Node) (within : Contains schema entry.2.2)
    (stands : StandsAt all next (topPlace entry).declaredBelow) :
    Describes schema all (topPlace entry) (topLevel schema id next entry.1 entry.2.1 entry.2.2).1 ∧
      (topLevel schema id next entry.1 entry.2.1 entry.2.2).1.owner = none ∧
      Grown schema all (topPlace entry).declaredBelow
        (NestedIn (topLevel schema id next entry.1 entry.2.1 entry.2.2).1)
        (topLevel schema id next entry.1 entry.2.1 entry.2.2).2 := by
  have made := madeShape_topLevel schema id next entry.1 entry.2.1 entry.2.2
  have lower : ∀ e ∈ (topLevel schema id next entry.1 entry.2.1 entry.2.2).2, id < e.id :=
    fun e inside => Nat.lt_of_lt_of_le later (le_id_of_mem made.2.made.ids inside)
  have nameable := isNameable_eq_isSome_shapeOf? schema id next (topPlace entry).path
    (topPlace entry).pointer (topPlace entry).node
  cases found : shapeOf? schema id next (topPlace entry).path (topPlace entry).pointer
    (topPlace entry).node.form (topPlace entry).node.metadata with
  | some result =>
    obtain ⟨shape, nested⟩ := result
    have whole : topLevel schema id next entry.1 entry.2.1 entry.2.2 =
        (⟨id, [entry.1], shape, entry.2.2.metadata, entry.2.2.nullable, none, entry.2.1⟩,
          nested) := by
      unfold topLevel
      simp only [topPlace] at found
      rw [found]
    obtain ⟨shaped, grown⟩ := grown_shapeOf? regular later (topPlace entry) within found stands
    rw [whole] at lower ⊢
    refine ⟨⟨rfl, rfl, rfl, rfl, .own (by simp [topPlace]) shaped⟩, rfl, grown.mono ?_⟩
    exact fun e inside hangs => ⟨hangs.1, lower e inside, hangs.2⟩
  | none =>
    have whole : topLevel schema id next entry.1 entry.2.1 entry.2.2 =
        (⟨id, [entry.1], .wrapper (useOf schema id next [entry.1] entry.2.1 entry.2.2).1,
            entry.2.2.metadata, entry.2.2.nullable, none, entry.2.1⟩,
          (useOf schema id next [entry.1] entry.2.1 entry.2.2).2) := by
      unfold topLevel
      simp only [topPlace] at found
      rw [found]
    rw [found, Option.isSome_none] at nameable
    have own : (topPlace entry).ifNameable = [] := by
      rw [Place.ifNameable, if_neg (by simp [nameable])]
    have result := grown_useOf regular (Nat.succ_le_of_lt later) id (topPlace entry) within
      (by simp [topPlace]) (by rwa [own, List.nil_append])
    rw [own, List.nil_append] at result
    obtain ⟨means, grown⟩ := result
    rw [whole] at lower ⊢
    refine ⟨⟨rfl, rfl, rfl, rfl, .wrapper rfl nameable means⟩, rfl, grown.mono ?_⟩
    rintro e inside ⟨owned, use, own, other⟩
    exact ⟨owned, lower e inside, .item rfl use own other⟩

theorem grown_topLevels (regular : Regular schema) {id next : Nat}
    (entries : List (String × Pointer × Node)) (later : id + entries.length ≤ next)
    (within : ∀ entry ∈ entries, Contains schema entry.2.2)
    (stands : StandsAt all next ((entries.map topPlace).flatMap Place.declaredBelow)) :
    List.Forall₂ (Describes schema all) (entries.map topPlace)
        (topLevels schema id next entries).1 ∧
      (∀ d ∈ (topLevels schema id next entries).1, d.owner = none) ∧
      Grown schema all ((entries.map topPlace).flatMap Place.declaredBelow)
        (fun d => ∃ owner ∈ (topLevels schema id next entries).1, NestedIn owner d)
        (topLevels schema id next entries).2 := by
  induction entries generalizing id next with
  | nil => exact ⟨.nil, by simp [topLevels], .nil⟩
  | cons entry rest ih =>
    obtain ⟨first, others⟩ := List.forall_mem_cons.1 within
    rw [List.length_cons] at later
    rw [List.map_cons, List.flatMap_cons] at stands ⊢
    obtain ⟨standsFirst, standsLater⟩ := standsAt_append.1 stands
    have below : id < next := by omega
    obtain ⟨describes, top, grown⟩ := grown_topLevel regular below entry first standsFirst
    rw [grown.length_eq] at standsLater
    have bound : id + 1 + rest.length ≤
        next + (topLevel schema id next entry.1 entry.2.1 entry.2.2).2.length := by omega
    obtain ⟨allDescribe, tops, more⟩ := ih bound others standsLater
    have step : topLevels schema id next (entry :: rest) =
        ((topLevel schema id next entry.1 entry.2.1 entry.2.2).1 :: (topLevels schema (id + 1)
            (next + (topLevel schema id next entry.1 entry.2.1 entry.2.2).2.length) rest).1,
          (topLevel schema id next entry.1 entry.2.1 entry.2.2).2 ++ (topLevels schema (id + 1)
            (next + (topLevel schema id next entry.1 entry.2.1 entry.2.2).2.length) rest).2) := rfl
    rw [step]
    refine ⟨.cons describes allDescribe, List.forall_mem_cons.2 ⟨top, tops⟩,
      (grown.mono ?_).append (more.mono ?_)⟩
    · exact fun d _ nested => ⟨_, List.mem_cons_self, nested⟩
    · rintro d - ⟨owner, inside, nested⟩
      exact ⟨owner, List.mem_cons_of_mem _ inside, nested⟩

end Growing

theorem map_topPlace_topEntries (schema : Schema) (rootName : String) :
    (topEntries schema rootName).map topPlace = topPlaces schema rootName := by
  rw [topEntries, topPlaces, List.map_cons, List.map_map]
  rfl

theorem contains_of_mem_topEntries {schema : Schema} {rootName : String} :
    ∀ entry ∈ topEntries schema rootName, Contains schema entry.2.2 := by
  intro entry member
  rcases List.mem_cons.1 member with rfl | member
  · exact .root
  · obtain ⟨definition, inside, rfl⟩ := List.mem_map.1 member
    exact .definition inside

theorem mirrors_ofSchema {schema : Schema} (regular : Regular schema) (rootName : String) :
    Mirrors schema rootName (ofSchema schema rootName) := by
  have stands := standsAt_length (topPlaces schema rootName)
    ((topPlaces schema rootName).flatMap Place.declaredBelow)
  rw [← declaredPlaces_eq, ← map_topPlace_topEntries, List.length_map, length_topEntries] at stands
  have count : 0 + (topEntries schema rootName).length ≤ schema.definitions.length + 1 := by
    rw [length_topEntries]
    omega
  obtain ⟨describe, top, grown⟩ := grown_topLevels regular (topEntries schema rootName) count
    contains_of_mem_topEntries stands
  obtain ⟨count, made⟩ := madeTop_topLevels schema 0 (schema.definitions.length + 1)
    (topEntries schema rootName)
  rw [ofSchema_eq]
  cases result : topLevels schema 0 (schema.definitions.length + 1) (topEntries schema rootName)
    with
  | mk tops nested =>
  rw [result] at describe top grown count made
  dsimp only at describe top grown count made ⊢
  rw [length_topEntries] at count
  rw [map_topPlace_topEntries] at describe grown
  have owned : ∀ d ∈ nested, ∃ owner ∈ tops ++ nested, NestedIn owner d := by
    intro d inside
    rcases grown.nested d inside with ⟨owner, member, nested⟩ | ⟨owner, member, nested⟩
    · exact ⟨owner, List.mem_append_left _ member, nested⟩
    · exact ⟨owner, List.mem_append_right _ member, nested⟩
  constructor
  case described =>
    suffices whole : List.Forall₂ (Describes schema (declaredPlaces schema rootName))
        (topPlaces schema rootName ++ (topPlaces schema rootName).flatMap Place.declaredBelow)
        (tops ++ nested) by
      rwa [← declaredPlaces_eq] at whole
    exact List.rel_append describe grown.described
  case top =>
    intro d inside
    rcases List.mem_append.1 inside with inside | inside
    · have member : d.id ∈ List.range' 0 tops.length := made.ids ▸ List.mem_map_of_mem inside
      have bound := (List.mem_range'_1.1 member).2
      simp only [top d inside, true_iff]
      omega
    · obtain ⟨owner, -, nested⟩ := owned d inside
      have bound := le_id_of_mem made.made.ids inside
      simp only [nested.owned, reduceCtorEq, false_iff]
      omega
  case nested =>
    intro d inside below
    rcases List.mem_append.1 inside with inside | inside
    · exact (below (top d inside)).elim
    · exact owned d inside

end SchemaBindings.Catalog
