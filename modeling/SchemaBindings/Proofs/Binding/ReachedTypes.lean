import SchemaBindings.Proofs.Binding.MemberFields

/-! What is written of a declaration: the uses of types in its shape and the items inside them, up to
the first one that a text stands for. Whatever a language looks for at all levels of its types, it
finds at these uses. -/

namespace SchemaBindings

/-- The uses on the way from a use to an item inside it, these two included, have no hint. -/
inductive TypeUse.Reaches (key : String) : TypeUse → TypeUse → Prop
  | refl {use : TypeUse} (untyped : use.metadata.hint? key = none) : Reaches key use use
  | item {use item level : TypeUse} (untyped : use.metadata.hint? key = none)
      (kind : use.kind = .elements item ∨ use.kind = .values item)
      (below : Reaches key item level) : Reaches key use level

/-- Some use in the shape, or inside of one there, is reached and has the property. -/
def Declaration.Reaches (key : String) (d : Declaration) (P : TypeUse → Prop) : Prop :=
  ∃ use ∈ d.shape.uses, ∃ level, use.Reaches key level ∧ P level

namespace Binding

open Catalog (Fits Linked Mirrors Suppressed)

section Levels

variable {key : String} {use item level : TypeUse}

theorem reaches_iff_of_item (untyped : use.metadata.hint? key = none)
    (kind : use.kind = .elements item ∨ use.kind = .values item) :
    use.Reaches key level ↔ level = use ∨ item.Reaches key level := by
  constructor
  · intro reaches
    cases reaches with
    | refl => exact .inl rfl
    | item _ other below =>
      have same :
          ∀ inner, use.kind = .elements inner ∨ use.kind = .values inner → inner = item := by
        rintro inner (other | other) <;> rcases kind with kind | kind <;>
          cases kind.symm.trans other <;> rfl
      exact .inr (same _ other ▸ below)
  · rintro (rfl | below)
    · exact .refl untyped
    · exact .item untyped kind below

theorem reaches_iff_of_plain (untyped : use.metadata.hint? key = none)
    (plain : use.kind.hasItems = false) : use.Reaches key level ↔ level = use := by
  constructor
  · intro reaches
    cases reaches with
    | refl => rfl
    | item _ kind => rcases kind with kind | kind <;> rw [kind] at plain <;> cases plain
  · rintro rfl
    exact .refl untyped

theorem not_reaches_of_hint {text : Json} (hint : use.metadata.hint? key = some text) :
    ¬ use.Reaches key level := by
  intro reaches
  cases reaches with
  | refl untyped => cases hint.symm.trans untyped
  | item untyped => cases hint.symm.trans untyped

end Levels

section Types

variable {keys : HintKeys} {c : NamedCatalog}

/-- A test that tells by each use without a hint what its type is like, finds at the levels of a type
what there is to find at the uses that are reached. -/
theorem anyLevel_iff {test : TypeExpr → Bool} {P : TypeUse → Prop}
    (verbatim : ∀ text, test (.verbatim text) = false)
    (tells : ∀ use container type,
      keys.container? use.kind.hasItems use.metadata use.pointer = .ok container →
        BuiltFrom keys c use container type → (test type = true ↔ P use))
    {use : TypeUse} {type : TypeExpr} (read : TypeExpr.ofUse keys c use = .ok type) :
    type.anyLevel test = true ↔ ∃ level, use.Reaches keys.type level ∧ P level := by
  have listed {use inner : TypeUse} {type item : TypeExpr} (own : test type = true ↔ P use)
      (untyped : use.metadata.hint? keys.type = none)
      (kind : use.kind = .elements inner ∨ use.kind = .values inner)
      (below : item.anyLevel test = true ↔ ∃ level, inner.Reaches keys.type level ∧ P level) :
      (test type || item.anyLevel test) = true ↔
        ∃ level, use.Reaches keys.type level ∧ P level := by
    rw [Bool.or_eq_true, own, below]
    simp only [reaches_iff_of_item untyped kind, or_and_right, exists_or, exists_eq_left]
  -- The type says which levels there are; a text ends them as the hint does.
  induction type generalizing use with
  | verbatim text =>
    have unlike : (TypeExpr.verbatim text).anyLevel test ≠ true :=
      Bool.eq_false_iff.1 (verbatim text)
    cases typeOf_of_ofUse read with
    | verbatim hint =>
      exact iff_of_false unlike fun ⟨_, reaches, _⟩ => not_reaches_of_hint hint reaches
    | built _ _ built => cases built
  | elements container item nullable ih =>
    cases typeOf_of_ofUse read with
    | built untyped held built =>
      have own := tells _ _ _ held built
      cases built with
      | elements kind itemRead => exact listed own untyped (.inl kind) (ih itemRead)
  | values container item nullable ih =>
    cases typeOf_of_ofUse read with
    | built untyped held built =>
      have own := tells _ _ _ held built
      cases built with
      | values kind itemRead => exact listed own untyped (.inr kind) (ih itemRead)
  | _ =>
    cases typeOf_of_ofUse read with
    | built untyped held built =>
      have noItems : use.kind.hasItems = false := by
        cases built with
        | _ kind => rw [kind]; rfl
      simp only [reaches_iff_of_plain untyped noItems, exists_eq_left]
      exact tells _ _ _ held built

theorem usesPrimitive_iff (p : Primitive) {use : TypeUse} {type : TypeExpr}
    (read : TypeExpr.ofUse keys c use = .ok type) :
    type.usesPrimitive p = true ↔
      ∃ level, use.Reaches keys.type level ∧ level.kind = .primitive p := by
  refine anyLevel_iff (fun _ => rfl) (fun use container type _ built => ?_) read
  cases built with
  | primitive kind =>
    rw [kind, TypeKind.primitive.injEq]
    exact beq_iff_eq
  | _ kind => rw [kind]; exact iff_of_false Bool.false_ne_true nofun

end Types

section Bodies

variable {ε μ : Type} {rules : Rules ε μ} {c : NamedCatalog}

/-- A body has a type for each use in its shape. -/
theorem forall₂_types {names : Naming.Names} {shape : Shape} {body : Body μ}
    (fits : Fits names shape) (bodyOf : BodyOf rules c names shape body) :
    List.Forall₂ (fun use type => TypeExpr.ofUse rules.keys c use = .ok type) shape.uses
      body.types := by
  have ofFields {members : List Member} {fields : List (Field μ)}
      (count : names.members.length = members.length)
      (read : rules.fields c (members.zip names.members) = .ok fields) :
      List.Forall₂ (fun use type => TypeExpr.ofUse rules.keys c use = .ok type)
        (members.map Member.type) (fields.map Field.type) := by
    have firsts : (members.zip names.members).map Prod.fst = members :=
      List.map_fst_zip (Nat.le_of_eq count.symm)
    rw [← firsts, List.map_map, List.forall₂_map_left_iff, List.forall₂_map_right_iff]
    exact (forall₂_fields read).imp fun _ _ own => own.type
  cases bodyOf with
  | record read => exact ofFields fits read
  | variant _ read => exact ofFields fits read
  | wrapper read => exact .cons read .nil
  | _ => exact .nil

/-- What is written of a declaration under its name. -/
structure WrittenAs (rules : Rules ε μ) (c : NamedCatalog) (declaration : Declaration)
    (d : Draft ε μ) : Prop where
  name : d.name = c.typeName declaration.id
  body : ∃ names ∈ c.names, d.name = names.type ∧ Fits names declaration.shape ∧
    BodyOf rules c names declaration.shape d.body

/-- What is tested of the second is what holds of the first, so it is found with both. -/
theorem any_iff_of_forall₂ {α β : Type} {R : α → β → Prop} {as : List α} {bs : List β}
    (related : List.Forall₂ R as bs) {test : β → Bool} {P : α → Prop}
    (tells : ∀ a b, R a b → (test b = true ↔ P a)) : bs.any test = true ↔ ∃ a ∈ as, P a := by
  induction related with
  | nil => simp
  | cons first _ ih =>
    rw [List.any_cons, Bool.or_eq_true, tells _ _ first, ih, List.exists_mem_cons_iff]

/-- What is found at a level of the types of a body, its declaration reaches. -/
theorem any_types_iff {test : TypeExpr → Bool} {P : TypeUse → Prop}
    (tells : ∀ use type, TypeExpr.ofUse rules.keys c use = .ok type →
      (test type = true ↔ ∃ level, use.Reaches rules.keys.type level ∧ P level))
    {declaration : Declaration} {d : Draft ε μ} (written : WrittenAs rules c declaration d) :
    d.body.types.any test = true ↔ declaration.Reaches rules.keys.type P := by
  obtain ⟨names, -, -, fits, bodyOf⟩ := written.body
  exact any_iff_of_forall₂ (forall₂_types fits bodyOf) tells

theorem isUnion_iff {declaration : Declaration} {d : Draft ε μ}
    (written : WrittenAs rules c declaration d) :
    declaration.shape.IsUnion ↔ ∃ tag cases, d.body = .union tag cases := by
  obtain ⟨names, -, -, -, bodyOf⟩ := written.body
  generalize declaration.shape = shape, d.body = body at bodyOf
  cases bodyOf with
  | union => exact iff_of_true ⟨_, _, rfl⟩ ⟨_, _, rfl⟩
  | _ =>
    exact iff_of_false (fun ⟨_, _, union⟩ => by cases union) fun ⟨_, _, union⟩ => by cases union

end Bodies

section Drafts

variable {ε μ : Type} {rules : Rules ε μ} {convention : Naming.Convention} {schema : Schema}
  {rootName : String} {catalog : Catalog}

/-- The declarations that no type hint replaces, in the order of the catalog. -/
structure Emitted (key : String) (catalog : Catalog) (emitted : List Declaration) : Prop where
  part : emitted.Sublist catalog.declarations
  left : ∀ d ∈ catalog.declarations, d ∈ emitted ↔ ¬ Suppressed key catalog d.id

theorem Emitted.exists_iff {key : String} {emitted : List Declaration}
    (all : Emitted key catalog emitted) (P : Declaration → Prop) :
    (∃ d ∈ emitted, P d) ↔
      ∃ d ∈ catalog.declarations, ¬ Suppressed key catalog d.id ∧ P d := by
  constructor
  · rintro ⟨d, listed, holds⟩
    have inside := all.part.subset listed
    exact ⟨d, inside, (all.left d inside).1 listed, holds⟩
  · rintro ⟨d, inside, free, holds⟩
    exact ⟨d, (all.left d inside).2 free, holds⟩

/-- Each declaration that no type hint replaces has its draft. -/
theorem exists_emitted_of_drafts (mirrors : Mirrors schema rootName catalog)
    (linked : Linked catalog) {drafts : List (Draft ε μ)}
    (read : rules.drafts (.ofCatalog convention catalog) = .ok drafts) :
    ∃ emitted, Emitted rules.keys.type catalog emitted ∧
      List.Forall₂ (WrittenAs rules (.ofCatalog convention catalog)) emitted drafts := by
  refine ⟨(rules.written (.ofCatalog convention catalog)).map Prod.fst,
    ⟨?_, fun d inside => ?_⟩, ?_⟩
  · have part := (List.filter_sublist (p := fun entry : (Declaration × Naming.Names) × Bool =>
      !entry.2) (l := (catalog.declarations.zip (Naming.resolve convention catalog)).zip
        (replaced rules.keys.type catalog))).map fun entry => entry.1
    exact ((part.trans (map_fst_zip_sublist _ _)).map Prod.fst).trans (map_fst_zip_sublist _ _)
  · constructor
    · intro listed
      obtain ⟨entry, written, rfl⟩ := List.mem_map.1 listed
      exact (left_of_mem_written mirrors linked written).2.2
    · intro left
      obtain ⟨own, -, written⟩ := exists_written_of_left mirrors linked
        (Naming.length_resolve convention catalog) (linked.declaration?_id inside) left
      exact List.mem_map_of_mem written
  · rw [List.forall₂_map_left_iff]
    refine forall₂_imp_of_mem (forall₂_of_drafts read) fun entry d listed drafted => ?_
    obtain ⟨i, declared, named, -⟩ := mem_written_iff.1 listed
    obtain ⟨-, name, bodyRead⟩ := draft_eq_ok drafted
    obtain rfl := linked.ids i entry.1 declared
    exact ⟨name.trans (typeName_eq named).symm, entry.2, List.mem_of_getElem? named, name,
      Catalog.fits_resolve linked convention declared named, bodyOf_of_body bodyRead⟩

end Drafts

end Binding

end SchemaBindings
