import SchemaBindings.Proofs.Binding.Failures
import SchemaBindings.Proofs.Catalog.Consistent
import SchemaBindings.Proofs.Catalog.Pointers
import SchemaBindings.Proofs.Naming.Legal

/-! Where a language fails. What it cannot render has a pointer that leads to a value of the
document that the schema was read from. -/

namespace SchemaBindings.Binding

open Catalog (Rooted)
open Pointer (LeadsTo)

/-- The pointer of a failure leads to a value of the document. -/
def Placed (document : Json) (fault : Unsupported) : Prop :=
  ∃ value, LeadsTo document fault.path value

variable {document : Json} {fault : Unsupported} {here : Pointer} {metadata : Metadata}
  {keys : HintKeys} {c : NamedCatalog}

section Hints

/-- A hint is rejected where it stands. -/
theorem placed_of_reject {α : Type} {key : String} {construct : Construct}
    (bears : Bears document here metadata) (carried : (metadata.hint? key).isSome)
    (failed : (keys.reject here key construct : Except Unsupported α) = .error fault) :
    Placed document fault := by
  obtain ⟨hint, found⟩ := Option.isSome_iff_exists.1 carried
  cases failed
  exact ⟨hint, bears.hint found⟩

theorem isSome_of_string? {key text : String}
    (read : keys.string? key metadata here = .ok (some text)) :
    (metadata.hint? key).isSome := by
  unfold HintKeys.string? at read
  split at read
  · cases read
  · rename_i found
    rw [found]
    rfl
  · cases read

theorem placed_of_string? {key : String} (bears : Bears document here metadata)
    (failed : keys.string? key metadata here = .error fault) : Placed document fault := by
  unfold HintKeys.string? at failed
  split at failed
  · cases failed
  · cases failed
  · rename_i found
    exact placed_of_reject bears (by rw [found]; rfl) failed

theorem placed_of_container? {hasItems : Bool} (bears : Bears document here metadata)
    (failed : keys.container? hasItems metadata here = .error fault) : Placed document fault := by
  unfold HintKeys.container? at failed
  split at failed
  · cases failed
  · rename_i key _
    split at failed
    · rename_i read
      cases failed
      exact placed_of_string? bears read
    · cases failed
    · rename_i text read
      split at failed
      · cases failed
      · exact placed_of_reject bears (isSome_of_string? read) failed

end Hints

/-- Where the hints of a catalog cannot be read, they stand in the document. -/
theorem placed_of_hintFails {catalog : Catalog} (rooted : Rooted document catalog)
    (fails : HintFails keys catalog fault) : Placed document fault := by
  cases fails with
  | declared inside failed => exact placed_of_string? (rooted.declarations _ inside) failed
  | type used failed => exact placed_of_string? (rooted.uses _ used) failed
  | container used failed => exact placed_of_container? (rooted.uses _ used) failed

theorem placed_of_drafts {ε μ : Type} {rules : Rules ε μ} (rooted : Rooted document c.catalog)
    (refused : rules.Refuses c fault → Placed document fault)
    (failed : rules.drafts c = .error fault) : Placed document fault :=
  (fails_of_drafts failed).elim (placed_of_hintFails rooted) refused

section Languages

theorem isEmbeddable_of_isIdentifier {name : String} (identifier : Naming.IsIdentifier name) :
    GoPackage.isEmbeddable name = true := by
  obtain ⟨first, rest, chars, letter, all⟩ := identifier
  have noDot : ∀ d ∈ name.toList, (d == '.') = false := by
    rw [chars]
    refine List.forall_mem_cons.2 ⟨beq_false_of_ne ?_, fun d member => beq_false_of_ne ?_⟩
    · rintro rfl
      exact absurd letter (by decide)
    · rintro rfl
      exact absurd (all _ member) (by decide)
  have named : GoPackage.isIdentifier name.toList = true := by
    simp only [chars, GoPackage.isIdentifier, letter, Bool.true_or, Bool.true_and,
      List.all_eq_true, Bool.or_eq_true, beq_iff_eq]
    exact all
  simp [GoPackage.isEmbeddable, Text.splitAtEach_of_forall_not noDot, named]

/-- A variant that cannot be embedded has a type hint: its own name could be embedded. -/
theorem carries_of_checkVariant {catalog : Catalog} {id : Nat} {d : Declaration}
    {reference : Reference} (declared : catalog.declaration? id = some d)
    (known : (NamedCatalog.ofCatalog GoPackage.naming catalog).reference GoPackage.hints id =
      .ok reference)
    (fails : GoPackage.isEmbeddable reference.text = false) :
    (d.metadata.hint? GoPackage.hints.type).isSome := by
  unfold NamedCatalog.reference at known
  simp only [NamedCatalog.ofCatalog, declared] at known
  obtain ⟨hint, read, known⟩ := (bind_eq_ok ..).1 known
  cases hint with
  | some text => exact isSome_of_string? read
  | none =>
    cases known
    have bound : id < (Naming.resolve GoPackage.naming catalog).length := by
      rw [Naming.length_resolve]
      exact (List.getElem?_eq_some_iff.1 declared).1
    have named := List.getElem?_eq_getElem bound
    have identifier := (Naming.each_resolve (Naming.regular_naming .go).ensures catalog _
      (List.getElem_mem bound)).type.identifier
    simp only [Reference.text, NamedCatalog.typeName, named, Option.map_some,
      Option.getD_some] at fails
    exact absurd (isEmbeddable_of_isIdentifier identifier) (by simp [fails])

theorem placed_of_refuses_rust (rooted : Rooted document c.catalog)
    (refuses : RustModule.rules.Refuses c fault) : Placed document fault := by
  obtain ⟨d, inside, failed | ⟨text, entry, read, failed⟩⟩ := RustModule.exists_of_refuses refuses
  · exact placed_of_string? (rooted.declarations d inside) failed
  · exact placed_of_reject (rooted.declarations d inside) (isSome_of_string? read) failed

theorem placed_of_refuses_typescript (rooted : Rooted document c.catalog)
    (refuses : TypeScriptModule.rules.Refuses c fault) : Placed document fault := by
  obtain ⟨d, inside, _, -, -, rfl⟩ := TypeScriptModule.exists_of_refuses refuses
  obtain ⟨value, -, leads, -⟩ := rooted.declarations d inside
  exact ⟨value, leads⟩

theorem placed_of_refuses_go {catalog : Catalog} (rooted : Rooted document catalog)
    (refuses : GoPackage.rules.Refuses (NamedCatalog.ofCatalog GoPackage.naming catalog) fault) :
    Placed document fault := by
  cases refuses with
  | @declaration _ d names declared _ failed =>
    have inside := List.mem_of_getElem? declared
    have bears := rooted.declarations d inside
    obtain ⟨tag, variants, shape, fails⟩ := GoPackage.tagFieldFails failed
    cases fails with
    | noMember _ same =>
      obtain ⟨value, -, leads, -⟩ := bears
      exact ⟨value, same ▸ leads⟩
    | hint failed => exact placed_of_string? bears failed
    | tagName failed =>
      obtain ⟨value, leads⟩ := rooted.unions d inside ⟨tag, variants, shape⟩
      obtain ⟨-, rfl⟩ := GoPackage.tagName_eq_error.1 failed
      exact ⟨value, leads⟩
  | member inside listed failed =>
    have used := Catalog.mem_uses_of_mem_shape inside (Shape.type_mem_uses listed)
      (Catalog.self_mem_levels _)
    obtain ⟨value, -, leads, -⟩ := rooted.uses _ used
    obtain ⟨-, rfl⟩ := GoPackage.tagName_eq_error.1 failed
    exact ⟨value, leads⟩
  | variant declared known failed =>
    obtain ⟨fails, rejected⟩ := GoPackage.checkVariant_eq_error failed
    exact placed_of_reject (rooted.declarations _ (List.mem_of_getElem? declared))
      (carries_of_checkVariant declared known fails) rejected

theorem placed_of_render {t : Target} {catalog : Catalog} (rooted : Rooted document catalog)
    (failed : t.render catalog = .error fault) : Placed document fault := by
  cases Target.draftsFail_of_render failed with
  | java _ failed =>
    exact placed_of_drafts rooted (fun refuses => absurd refuses JavaClasses.not_refuses) failed
  | rust _ failed => exact placed_of_drafts rooted (placed_of_refuses_rust rooted) failed
  | go _ failed => exact placed_of_drafts rooted (placed_of_refuses_go rooted) failed
  | typescript _ failed =>
    exact placed_of_drafts rooted (placed_of_refuses_typescript rooted) failed

end Languages

/-- The pointer leads to an object of the document, and its metadata is read as this one. -/
def PointsAt (document : Json) (here : Pointer) (metadata : Metadata) : Prop :=
  ∃ value fields, here.find? document = some value ∧ value.fields? = some fields ∧
    Schema.readMetadata here fields = .ok metadata

theorem pointsAt_of_bears (bears : Bears document here metadata) :
    PointsAt document here metadata := by
  obtain ⟨value, fields, leads, object, read⟩ := bears
  exact ⟨value, fields, leads.find?, object, read⟩

/-- Every pointer of a catalog leads back to the node it was made from, whose metadata is what the
catalog keeps with it; and whatever a target cannot render is at a place of the document. -/
theorem pointers_ofSchema {schema : Schema} (read : Schema.ofJson document = .ok schema)
    (rootName : String) :
    (∀ d ∈ (Catalog.ofSchema schema rootName).declarations,
      PointsAt document d.pointer d.metadata) ∧
    (∀ use ∈ (Catalog.ofSchema schema rootName).uses,
      PointsAt document use.pointer use.metadata) ∧
    ∀ (t : Target) (fault : Unsupported),
      t.render (Catalog.ofSchema schema rootName) = .error fault →
        ∃ value, fault.path.find? document = some value := by
  have rooted := Catalog.rooted_ofSchema read rootName
  refine ⟨fun d member => pointsAt_of_bears (rooted.declarations d member),
    fun use member => pointsAt_of_bears (rooted.uses use member), fun t fault failed => ?_⟩
  obtain ⟨value, leads⟩ := placed_of_render rooted failed
  exact ⟨value, leads.find?⟩

/-- A union whose tag cannot stand in a struct tag. -/
def commaTag : Json :=
  .object [("discriminator", .string "a,b"),
    ("mapping", .object [("x", .object [("properties", .object [])])])]

theorem pointers_commaTag :
    ∃ schema fault, Schema.ofJson commaTag = .ok schema ∧
      Target.render ⟨.go, "shapes"⟩ (Catalog.ofSchema schema "shape") = .error fault ∧
      fault.path = ⟨"/discriminator"⟩ ∧
      (∀ d ∈ (Catalog.ofSchema schema "shape").declarations,
        PointsAt commaTag d.pointer d.metadata) ∧
      ∃ value, fault.path.find? commaTag = some value := by
  have fails : (Schema.ofJson commaTag).toOption.bind (fun schema =>
      fault? (Target.render ⟨.go, "shapes"⟩ (Catalog.ofSchema schema "shape"))) =
        some ⟨.go, ⟨"/discriminator"⟩, .notTagName "a,b"⟩ := by decide +kernel
  obtain ⟨schema, read, fails⟩ := Option.bind_eq_some_iff.1 fails
  have read := eq_ok_of_toOption read
  have failed := eq_error_of_fault? fails
  obtain ⟨declared, -, unsupported⟩ := pointers_ofSchema read "shape"
  exact ⟨schema, _, read, failed, rfl, declared, unsupported _ _ failed⟩

end SchemaBindings.Binding
