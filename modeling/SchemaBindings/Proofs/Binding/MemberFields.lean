import SchemaBindings.Proofs.Binding.Unhinted

/-! A record or a variant is drafted with a field for each of its members, in their order, whose type
follows from the use that the member has. No description is lost or added. -/

namespace SchemaBindings

/-- A description for each member or for each value, where there is one. -/
def Shape.descriptions : Shape → List (Option String)
  | .record members _ => members.map Member.described
  | .enumeration values => values.map EnumValue.described
  | .variant _ _ members _ => members.map Member.described
  | _ => []

/-- The description of a declaration, and those inside it. -/
def Declaration.descriptions (d : Declaration) : List (Option String) :=
  d.metadata.described :: d.shape.descriptions

namespace Binding

open Catalog (Fits Linked Mirrors Suppressed)

section Descriptions

variable {ε μ : Type}

def Body.descriptions : Body μ → List (Option String)
  | .record fields _ => fields.map Field.described
  | .variant _ _ fields _ => fields.map Field.described
  | .enumeration choices => choices.map Choice.described
  | _ => []

def Draft.descriptions (d : Draft ε μ) : List (Option String) := d.described :: d.body.descriptions

end Descriptions

section Fields

/-- What follows for the pairs of a relation may depend on where the first of a pair is listed. -/
theorem forall₂_imp_of_mem {α β : Type} {R S : α → β → Prop} {as : List α} {bs : List β}
    (related : List.Forall₂ R as bs) (implies : ∀ a b, a ∈ as → R a b → S a b) :
    List.Forall₂ S as bs := by
  have listed : List.Forall₂ (fun a b => a ∈ as ∧ R a b) as bs :=
    (List.forall₂_and_left as bs).2 ⟨fun _ => id, related⟩
  exact listed.imp fun a b own => implies a b own.1 own.2

variable {ε μ : Type} {rules : Rules ε μ} {c : NamedCatalog}

/-- How a field follows from its member. -/
structure FieldFor (rules : Rules ε μ) (c : NamedCatalog) (m : Member) (f : Field μ) : Prop where
  wireName : f.wireName = m.wireName
  required : f.required = m.required
  described : f.described = m.described
  type : TypeOf rules.keys c m.type f.type

theorem forall₂_fieldFor {members : List Member} {names : List String} {fields : List (Field μ)}
    (count : names.length = members.length)
    (read : rules.fields c (members.zip names) = .ok fields) :
    List.Forall₂ (FieldFor rules c) members fields := by
  have firsts : (members.zip names).map Prod.fst = members :=
    List.map_fst_zip (Nat.le_of_eq count.symm)
  rw [← firsts]
  exact List.forall₂_map_left_iff.2 ((forall₂_fields read).imp fun _ _ own =>
    ⟨own.wireName, own.required, own.described, typeOf_of_ofUse own.type⟩)

/-- What is drafted for a declaration: a body with a field for each member, and every description
that the declaration has. -/
structure DraftFor (rules : Rules ε μ) (c : NamedCatalog) (declaration : Declaration)
    (d : Draft ε μ) : Prop where
  id : d.id = declaration.id
  descriptions : d.descriptions = declaration.descriptions
  fields : List.Forall₂ (FieldFor rules c) declaration.shape.members d.body.fields

theorem descriptions_of_body {shape : Shape} {names : Naming.Names} {body : Body μ}
    (fits : Fits names shape) (bodyOf : BodyOf rules c names shape body) :
    body.descriptions = shape.descriptions := by
  have ofFields {members : List Member} {fields : List (Field μ)}
      (count : names.members.length = members.length)
      (read : rules.fields c (members.zip names.members) = .ok fields) :
      fields.map Field.described = members.map Member.described :=
    Catalog.map_eq_of_forall₂ ((forall₂_fieldFor count read).imp fun _ _ field => field.described)
  cases bodyOf with
  | record read => exact ofFields fits read
  | variant _ read => exact ofFields fits read
  | @enumeration values =>
    have firsts : (values.zip names.constants).map Prod.fst = values :=
      List.map_fst_zip (Nat.le_of_eq fits.symm)
    rw [Shape.descriptions, ← firsts, Body.descriptions, List.map_map, List.map_map, firsts]
    rfl
  | _ => rfl

theorem draftFor_of_draft {declaration : Declaration} {names : Naming.Names} {d : Draft ε μ}
    (fits : Fits names declaration.shape) (drafted : rules.draft c declaration names = .ok d) :
    DraftFor rules c declaration d := by
  obtain ⟨_, -, drafted⟩ := (bind_eq_ok ..).1 drafted
  obtain ⟨body, bodyRead, same⟩ := (bind_eq_ok ..).1 drafted
  cases same
  have bodyOf := bodyOf_of_body bodyRead
  refine ⟨rfl, congrArg (_ :: ·) (descriptions_of_body fits bodyOf), ?_⟩
  generalize declaration.shape = shape at fits bodyOf
  cases bodyOf with
  | record read => exact forall₂_fieldFor fits read
  | variant _ read => exact forall₂_fieldFor fits read
  | _ => exact .nil

/-- Of the declarations of a catalog each that is written has its draft. -/
theorem draftsFor_of_drafts {convention : Naming.Convention} {catalog : Catalog}
    (linked : Linked catalog) {drafts : List (Draft ε μ)}
    (read : rules.drafts (.ofCatalog convention catalog) = .ok drafts) :
    List.Forall₂ (fun entry => DraftFor rules (.ofCatalog convention catalog) entry.1)
      (rules.written (.ofCatalog convention catalog)) drafts := by
  refine forall₂_imp_of_mem (forall₂_of_drafts read) fun entry d listed own => ?_
  obtain ⟨i, declared, named, -⟩ := mem_written_iff.1 listed
  exact draftFor_of_draft (Catalog.fits_resolve linked convention declared named) own

/-- The descriptions that are written are those of the declarations that no type hint replaces. -/
theorem exists_descriptions_iff {convention : Naming.Convention} {schema : Schema}
    {rootName : String} {catalog : Catalog} (mirrors : Mirrors schema rootName catalog)
    (linked : Linked catalog) {drafts : List (Draft ε μ)}
    (read : rules.drafts (.ofCatalog convention catalog) = .ok drafts)
    (P : List (Option String) → Prop) :
    (∃ d ∈ drafts, P d.descriptions) ↔ ∃ declaration ∈ catalog.declarations,
      ¬ Suppressed rules.keys.type catalog declaration.id ∧ P declaration.descriptions := by
  have matched := draftsFor_of_drafts linked read
  constructor
  · rintro ⟨d, member, own⟩
    obtain ⟨i, found⟩ := List.mem_iff_getElem?.1 member
    obtain ⟨entry, there, draftFor⟩ := Catalog.getElem?_of_forall₂ matched.flip found
    obtain ⟨inside, -, left⟩ := left_of_mem_written mirrors linked (List.mem_of_getElem? there)
    exact ⟨entry.1, inside, left, draftFor.descriptions ▸ own⟩
  · rintro ⟨declaration, inside, left, own⟩
    obtain ⟨names, -, listed⟩ := exists_written_of_left mirrors linked
      (Naming.length_resolve convention catalog) (linked.declaration?_id inside) left
    obtain ⟨i, found⟩ := List.mem_iff_getElem?.1 listed
    obtain ⟨d, there, draftFor⟩ := Catalog.getElem?_of_forall₂ matched found
    exact ⟨d, List.mem_of_getElem? there, draftFor.descriptions.symm ▸ own⟩

/-- Without hints for types each declaration of a catalog has its draft. -/
theorem draftsFor_of_unhinted {convention : Naming.Convention} {schema : Schema} {rootName : String}
    {catalog : Catalog} (mirrors : Mirrors schema rootName catalog) (linked : Linked catalog)
    (unhinted : ∀ d ∈ catalog.declarations, d.metadata.hint? rules.keys.type = none)
    {drafts : List (Draft ε μ)}
    (read : rules.drafts (.ofCatalog convention catalog) = .ok drafts) :
    List.Forall₂ (DraftFor rules (.ofCatalog convention catalog)) catalog.declarations drafts := by
  have written : rules.written (.ofCatalog convention catalog) =
      catalog.declarations.zip (Naming.resolve convention catalog) :=
    written_of_unhinted mirrors linked unhinted
  have firsts : (catalog.declarations.zip (Naming.resolve convention catalog)).map Prod.fst =
      catalog.declarations :=
    List.map_fst_zip (Nat.le_of_eq (Naming.length_resolve ..).symm)
  have each := written ▸ draftsFor_of_drafts linked read
  rw [← firsts]
  exact List.forall₂_map_left_iff.2 each

end Fields

section Printing

variable {package : String} {schema : Schema} {rootName : String} {rendered : Rendered}

/-- A Rust module is the lines of its drafts behind a notice. -/
theorem RustModule.exists_drafts_of_render
    (renders : Target.render ⟨.rust, package⟩ (Catalog.ofSchema schema rootName) = .ok rendered) :
    ∃ drafts, rules.drafts (namedFor .rust schema rootName) = .ok drafts ∧
      rendered.files = [⟨"mod.rs", Text.unlines (["//! " ++ notice, ""] ++
        drafts.flatMap (itemLines (holdings (Catalog.ofSchema schema rootName))))⟩] := by
  have files : RustModule.files (namedFor .rust schema rootName) = .ok rendered.files :=
    files_of_render renders
  rw [files_eq] at files
  obtain ⟨drafts, drafted, same⟩ := (bind_eq_ok ..).1 files
  exact ⟨drafts, drafted, ((pure_eq_ok ..).1 same).symm⟩

/-- A Go package is the lines of its drafts behind its head. -/
theorem GoPackage.exists_drafts_of_render
    (renders : Target.render ⟨.go, package⟩ (Catalog.ofSchema schema rootName) = .ok rendered) :
    ∃ drafts, rules.drafts (namedFor .go schema rootName) = .ok drafts ∧
      rendered.files = [⟨package ++ ".go", Text.unlines
        (["// " ++ notice, "", "package " ++ package] ++ importLines (imports drafts) ++
          drafts.flatMap
            (fun d => "" :: itemLines (holdings (Catalog.ofSchema schema rootName)) d))⟩] := by
  have files : GoPackage.files package (namedFor .go schema rootName) = .ok rendered.files :=
    files_of_render renders
  obtain ⟨drafts, drafted, same⟩ := (bind_eq_ok ..).1 files
  exact ⟨drafts, drafted, ((pure_eq_ok ..).1 same).symm⟩

end Printing

end Binding

end SchemaBindings
