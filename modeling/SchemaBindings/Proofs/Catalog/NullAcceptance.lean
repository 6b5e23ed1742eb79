import SchemaBindings.Proofs.Catalog.Growth
import SchemaBindings.Proofs.Catalog.Uses

/-! Null is accepted by the use of a type exactly where the node that stands there accepts it, over
whatever references and wrappers that is decided. -/

namespace SchemaBindings

open Schema (Contains Regular Follows)

/-- What lets a node accept null, when it is known which nodes do. -/
def Schema.NullRule (schema : Schema) (accepts : Node → Prop) (node : Node) : Prop :=
  node.nullable = true ∨ node.form = .empty ∨
    ∃ name target, node.form = .ref name ∧ schema.definitions.lookup name = some target ∧
      accepts target

/-- What lets a use accept null, when it is known which uses do. -/
def Catalog.NullRule (catalog : Catalog) (accepts : TypeUse → Prop) (use : TypeUse) : Prop :=
  use.nullable = true ∨ use.kind = .anything ∨
    ∃ id inner, use.kind = .declared id ∧ catalog.shape? id = some (.wrapper inner) ∧ accepts inner

inductive Schema.AcceptsNull (schema : Schema) : Node → Prop
  | nullable {node : Node} (flag : node.nullable = true) : AcceptsNull schema node
  | empty {node : Node} (form : node.form = .empty) : AcceptsNull schema node
  | ref {node target : Node} {name : String} (form : node.form = .ref name)
      (found : schema.definitions.lookup name = some target) (accepts : AcceptsNull schema target) :
      AcceptsNull schema node

theorem Schema.nullRule_congr {schema : Schema} {node : Node} {p q : Node → Prop}
    (same : ∀ name target, node.form = .ref name → schema.definitions.lookup name = some target →
      (p target ↔ q target)) : schema.NullRule p node ↔ schema.NullRule q node := by
  refine or_congr Iff.rfl (or_congr Iff.rfl ?_)
  refine exists_congr fun name => exists_congr fun target => and_congr_right fun form => ?_
  exact and_congr_right fun found => same name target form found

theorem Schema.acceptsNull_iff {schema : Schema} {node : Node} :
    schema.AcceptsNull node ↔ schema.NullRule schema.AcceptsNull node := by
  constructor
  · intro accepts
    cases accepts with
    | nullable flag => exact .inl flag
    | empty form => exact .inr (.inl form)
    | ref form found accepts => exact .inr (.inr ⟨_, _, form, found, accepts⟩)
  · rintro (flag | form | ⟨name, target, form, found, accepts⟩)
    · exact .nullable flag
    · exact .empty form
    · exact .ref form found accepts

namespace Catalog

inductive AcceptsNull (catalog : Catalog) : TypeUse → Prop
  | nullable {use : TypeUse} (flag : use.nullable = true) : AcceptsNull catalog use
  | anything {use : TypeUse} (kind : use.kind = .anything) : AcceptsNull catalog use
  | wrapper {use inner : TypeUse} {id : Nat} (kind : use.kind = .declared id)
      (wraps : catalog.shape? id = some (.wrapper inner)) (accepts : AcceptsNull catalog inner) :
      AcceptsNull catalog use

/-- The uses of a catalog accept null where the nodes do, and there is no other way to read either
rule. -/
structure KeepsNull (schema : Schema) (rootName : String) (catalog : Catalog) : Prop where
  used : ∀ place, Located schema rootName place → HasUse place →
    ∃ use ∈ catalog.uses, use.pointer = place.pointer
  agrees : ∀ place, Located schema rootName place → HasUse place →
    ∀ use ∈ catalog.uses, use.pointer = place.pointer →
      (catalog.AcceptsNull use ↔ schema.AcceptsNull place.node)
  nodes : ∀ accepts : Node → Prop,
    (∀ node, Contains schema node → (accepts node ↔ schema.NullRule accepts node)) →
    ∀ node, Contains schema node → (accepts node ↔ schema.AcceptsNull node)
  uses : ∀ accepts : TypeUse → Prop,
    (∀ use ∈ catalog.uses, (accepts use ↔ catalog.NullRule accepts use)) →
    ∀ use ∈ catalog.uses, (accepts use ↔ catalog.AcceptsNull use)

section Rules

theorem acceptsNull_iff {catalog : Catalog} {use : TypeUse} :
    catalog.AcceptsNull use ↔ catalog.NullRule catalog.AcceptsNull use := by
  constructor
  · intro accepts
    cases accepts with
    | nullable flag => exact .inl flag
    | anything kind => exact .inr (.inl kind)
    | wrapper kind wraps accepts => exact .inr (.inr ⟨_, _, kind, wraps, accepts⟩)
  · rintro (flag | kind | ⟨id, inner, kind, wraps, accepts⟩)
    · exact .nullable flag
    · exact .anything kind
    · exact .wrapper kind wraps accepts

theorem nullRule_congr {catalog : Catalog} {use : TypeUse} {p q : TypeUse → Prop}
    (same : ∀ id inner, use.kind = .declared id → catalog.shape? id = some (.wrapper inner) →
      (p inner ↔ q inner)) : catalog.NullRule p use ↔ catalog.NullRule q use := by
  refine or_congr Iff.rfl (or_congr Iff.rfl ?_)
  refine exists_congr fun id => exists_congr fun inner => and_congr_right fun kind => ?_
  exact and_congr_right fun wraps => same id inner kind wraps

end Rules

section Agreement

variable {schema : Schema} {rootName : String} {catalog : Catalog} {first : Nat}

/-- The number in a reference leads to the declaration of the definition that is named. -/
theorem Mirrors.target_of_reference (mirrors : Mirrors schema rootName catalog)
    (regular : Regular schema) {name : String} {id : Nat}
    (found : definitionId? schema name = some id) :
    ∃ target, schema.definitions.lookup name = some target ∧ ∃ d,
      catalog.declaration? id = some d ∧
        Describes schema (declaredPlaces schema rootName) (definitionPlace (name, target)) d := by
  obtain ⟨i, target, rfl, known⟩ := definitionId?_eq_some found
  have member := List.mem_of_getElem? known
  have numbered : (declaredPlaces schema rootName)[i + 1]? =
      some (definitionPlace (name, target)) :=
    getElem?_declaredPlaces_definition known
  obtain ⟨d, declared, describes⟩ := mirrors.declaration_at numbered
  exact ⟨target, Keyed.lookup_of_mem regular.definitions member, d, declared, describes⟩

/-- A use of a wrapper stands for a reference to the definition that is wrapped. -/
theorem Mirrors.reference_of_wrapper (mirrors : Mirrors schema rootName catalog)
    (regular : Regular schema) {place : Place} {use inner : TypeUse} {id : Nat}
    (means : Means schema (declaredPlaces schema rootName) first place use)
    (kind : use.kind = .declared id) (wraps : catalog.shape? id = some (.wrapper inner)) :
    ∃ name target, place.node.form = .ref name ∧ schema.definitions.lookup name = some target ∧
      inner ∈ catalog.uses ∧ ∃ next, Means schema (declaredPlaces schema rootName) next
        (definitionPlace (name, target)) inner := by
  obtain ⟨d, declared, shape⟩ := Option.map_eq_some_iff.1 wraps
  cases means with
  | @reference _ name _ form found =>
    cases kind
    obtain ⟨target, lookup, d', declared', describes⟩ := mirrors.target_of_reference regular found
    cases declared.symm.trans declared'
    have used : inner ∈ d.shape.uses := by
      rw [shape]
      exact List.mem_singleton.2 rfl
    have inside :=
      mem_uses_of_mem_shape (List.mem_of_getElem? declared) used (self_mem_levels inner)
    have shaped := describes.shape
    rw [shape] at shaped
    exact ⟨name, target, form, lookup, inside, d.id + 1, shaped.wrapper_inv.2.2⟩
  | declared nameable _ numbered =>
    cases kind
    obtain ⟨d', declared', describes⟩ := mirrors.declaration_at numbered
    cases declared.symm.trans declared'
    have shaped := describes.shape
    rw [shape] at shaped
    cases nameable.symm.trans shaped.wrapper_inv.2.1
  | _ => cases kind

theorem Mirrors.accepts_node (mirrors : Mirrors schema rootName catalog) (regular : Regular schema)
    {place : Place} {use : TypeUse}
    (means : Means schema (declaredPlaces schema rootName) first place use)
    (accepts : catalog.AcceptsNull use) : schema.AcceptsNull place.node := by
  induction accepts generalizing place first with
  | nullable flag =>
    cases means with
    | @reference _ name id form found =>
      obtain ⟨target, lookup, -⟩ := mirrors.target_of_reference regular found
      simp only [TypeUse.nullable, Bool.or_eq_true, targetNullable, lookup, Bool.and_eq_true]
        at flag
      rcases flag with flag | ⟨-, flag⟩
      · exact .nullable flag
      · exact .ref form lookup (.nullable flag)
    | _ => exact .nullable flag
  | anything kind =>
    cases means with
    | anything form => exact .empty form
    | _ => cases kind
  | wrapper kind wraps _ ih =>
    obtain ⟨name, target, form, lookup, -, _, inner⟩ :=
      mirrors.reference_of_wrapper regular means kind wraps
    exact .ref form lookup (ih inner)

theorem Means.nullable_of_node {all : List Place} {place : Place} {use : TypeUse}
    (means : Means schema all first place use) (flag : place.node.nullable = true) :
    use.nullable = true := by
  cases means with
  | reference => simp [TypeUse.nullable, flag]
  | _ => exact flag

theorem Mirrors.accepts_use (mirrors : Mirrors schema rootName catalog) (regular : Regular schema)
    {place : Place} {use : TypeUse}
    (means : Means schema (declaredPlaces schema rootName) first place use)
    (accepts : schema.AcceptsNull place.node) : catalog.AcceptsNull use := by
  generalize same : place.node = node at accepts
  induction accepts generalizing place use first with
  | nullable flag => exact .nullable (means.nullable_of_node (same ▸ flag))
  | empty form =>
    rw [← same] at form
    cases means with
    | anything => exact .anything rfl
    | declared nameable => simp [Node.isNameable, form] at nameable
    | _ own => cases own.symm.trans form
  | @ref node target name form found accepts ih =>
    rw [← same] at form
    cases means with
    | declared nameable => simp [Node.isNameable, form] at nameable
    | reference own known =>
      cases own.symm.trans form
      obtain ⟨target', lookup, d, declared, describes⟩ := mirrors.target_of_reference regular known
      cases found.symm.trans lookup
      cases nameable : target.isNameable with
      | true =>
        -- A target with a declaration of its own can only be nullable itself.
        have flag : target.nullable = true := by
          unfold Node.isNameable at nameable
          cases accepts with
          | nullable flag => exact flag
          | empty form => simp [form] at nameable
          | ref form => simp [form] at nameable
        refine .nullable ?_
        simp [TypeUse.nullable, targetNullable, found, nameable, flag]
      | false =>
        obtain ⟨inner, shape, means⟩ := describes.shape.wrapper_of_plain rfl nameable
        refine .wrapper rfl ?_ (ih means rfl)
        rw [shape?, declared, Option.map_some, shape]
    | _ own => cases own.symm.trans form

/-- References end, so the rule for nodes leaves no choice. -/
theorem accepts_node_unique {accepts : Node → Prop}
    (rule : ∀ node, Contains schema node → (accepts node ↔ schema.NullRule accepts node))
    {steps : Nat} {node last : Node} (follows : Follows schema.definitions steps node last)
    (ends : ∀ target, last.form ≠ .ref target) (within : Contains schema node) :
    accepts node ↔ schema.AcceptsNull node := by
  induction follows with
  | here =>
    rw [rule _ within, Schema.acceptsNull_iff]
    exact Schema.nullRule_congr fun name target form _ => (ends name form).elim
  | step form found _ ih =>
    have next := ih ends (.definition (Keyed.mem_of_lookup found))
    rw [rule _ within, Schema.acceptsNull_iff]
    refine Schema.nullRule_congr fun name target own known => ?_
    cases form.symm.trans own
    cases found.symm.trans known
    exact next

/-- Wrappers end where references do, so neither does the rule for uses. -/
theorem Mirrors.accepts_use_unique (mirrors : Mirrors schema rootName catalog)
    (regular : Regular schema) {accepts : TypeUse → Prop}
    (rule : ∀ use ∈ catalog.uses, (accepts use ↔ catalog.NullRule accepts use))
    {steps : Nat} {node last : Node} (follows : Follows schema.definitions steps node last)
    (ends : ∀ target, last.form ≠ .ref target) {place : Place} (same : place.node = node)
    {use : TypeUse} (inside : use ∈ catalog.uses)
    (means : Means schema (declaredPlaces schema rootName) first place use) :
    accepts use ↔ catalog.AcceptsNull use := by
  induction follows generalizing place use first with
  | here =>
    rw [rule use inside, acceptsNull_iff]
    refine nullRule_congr fun id inner kind wraps => ?_
    obtain ⟨name, _, form, -⟩ := mirrors.reference_of_wrapper regular means kind wraps
    exact (ends name (same ▸ form)).elim
  | step form found _ ih =>
    rw [rule use inside, acceptsNull_iff]
    refine nullRule_congr fun id inner kind wraps => ?_
    obtain ⟨name, target, own, known, inside, _, means⟩ :=
      mirrors.reference_of_wrapper regular means kind wraps
    rw [same] at own
    cases form.symm.trans own
    cases found.symm.trans known
    exact ih ends rfl inside means

end Agreement

/-- What accepts null in a schema that was read accepts null in its catalog, and nothing else. -/
theorem keepsNull_ofSchema {document : Json} {schema : Schema}
    (read : Schema.ofJson document = .ok schema) (rootName : String) :
    KeepsNull schema rootName (ofSchema schema rootName) := by
  have regular := Schema.regular_of_ofJson read
  have mirrors := mirrors_ofSchema regular rootName
  constructor
  case used =>
    intro place located typed
    obtain ⟨first, use, inside, means⟩ := mirrors.exists_use regular located typed
    exact ⟨use, inside, means.pointer_eq⟩
  case agrees =>
    intro place located typed use inside same
    obtain ⟨other, first, locatedOther, -, means⟩ := mirrors.means_of_mem_uses inside
    obtain rfl := place_eq_of_pointer_eq regular locatedOther located (means.pointer_eq ▸ same)
    exact ⟨mirrors.accepts_node regular means, mirrors.accepts_use regular means⟩
  case nodes =>
    intro accepts rule node within
    obtain ⟨steps, last, follows, ends⟩ := Schema.settles_of_ofJson read within
    exact accepts_node_unique rule follows ends within
  case uses =>
    intro accepts rule use inside
    obtain ⟨place, first, located, -, means⟩ := mirrors.means_of_mem_uses inside
    obtain ⟨steps, last, follows, ends⟩ := Schema.settles_of_ofJson read located.contains
    exact mirrors.accepts_use_unique regular rule follows ends rfl inside means

theorem keepsNull_drawing :
    ∃ schema, Schema.ofJson Schema.drawing = .ok schema ∧
      KeepsNull schema "drawing" (ofSchema schema "drawing") := by
  obtain ⟨schema, read⟩ := Schema.exists_ofJson_drawing
  exact ⟨schema, read, keepsNull_ofSchema read "drawing"⟩

end Catalog

end SchemaBindings
