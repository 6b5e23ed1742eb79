import SchemaBindings.Binding.Target
import SchemaBindings.Proofs.Catalog.Uses
import SchemaBindings.Proofs.Outcome

/-! What makes a target fail. It is a hint that cannot be read, or something that the rules of its
language refuse: a declaration, a member, or a variant with the text that refers to it. -/

namespace SchemaBindings

namespace Binding

/-- A hint of a declaration or of a use cannot be read. -/
inductive HintFails (keys : HintKeys) (catalog : Catalog) (fault : Unsupported) : Prop
  | declared {d : Declaration} (inside : d ∈ catalog.declarations)
      (failed : keys.type? d.metadata d.pointer = .error fault)
  | type {use : TypeUse} (used : use ∈ catalog.uses)
      (failed : keys.type? use.metadata use.pointer = .error fault)
  | container {use : TypeUse} {hasItems : Bool} (used : use ∈ catalog.uses)
      (failed : keys.container? hasItems use.metadata use.pointer = .error fault)

/-- The rules of a language refuse something in a catalog. -/
inductive Rules.Refuses {ε μ : Type} (rules : Rules ε μ) (c : NamedCatalog) (fault : Unsupported) :
    Prop
  | declaration {id : Nat} {d : Declaration} {names : Naming.Names}
      (declared : c.catalog.declaration? id = some d) (named : c.names[id]? = some names)
      (failed : rules.declaration c d names = .error fault)
  | member {d : Declaration} {m : Member} (inside : d ∈ c.catalog.declarations)
      (listed : m ∈ d.shape.members) (failed : rules.member m = .error fault)
  | variant {id : Nat} {d : Declaration} {reference : Reference}
      (declared : c.catalog.declaration? id = some d)
      (known : c.reference rules.keys id = .ok reference)
      (failed : rules.variant d reference = .error fault)

section Types

variable {keys : HintKeys} {c : NamedCatalog} {fault : Unsupported}

theorem fails_of_reference {id : Nat} (failed : c.reference keys id = .error fault) :
    HintFails keys c.catalog fault := by
  unfold NamedCatalog.reference at failed
  split at failed
  · cases failed
  · rename_i d declared
    rcases (bind_eq_error ..).1 failed with failed | ⟨hint, -, failed⟩
    · exact .declared (List.mem_of_getElem? declared) failed
    · cases hint <;> cases failed

/-- A type fails at one of its levels, or at a declaration that it names. -/
theorem fails_of_ofUse {use : TypeUse} (uses : ∀ level ∈ use.levels, level ∈ c.catalog.uses)
    (failed : TypeExpr.ofUse keys c use = .error fault) : HintFails keys c.catalog fault := by
  match use with
  | .mk kind nullable metadata here =>
    have own := uses _ (Catalog.self_mem_levels _)
    rw [TypeExpr.ofUse.eq_def] at failed
    rcases (bind_eq_error ..).1 failed with failed | ⟨hint, -, failed⟩
    · exact .type own failed
    cases hint with
    | some text => cases failed
    | none =>
      cases kind with
      | anything => exact .container own (error_of_bind_pure failed)
      | primitive p => exact .container own (error_of_bind_pure failed)
      | elements item =>
        rw [TypeUse.levels] at uses
        rcases (bind_eq_error ..).1 failed with failed | ⟨_, -, failed⟩
        · exact .container own failed
        · exact fails_of_ofUse (List.forall_mem_cons.1 uses).2 (error_of_bind_pure failed)
      | values item =>
        rw [TypeUse.levels] at uses
        rcases (bind_eq_error ..).1 failed with failed | ⟨_, -, failed⟩
        · exact .container own failed
        · exact fails_of_ofUse (List.forall_mem_cons.1 uses).2 (error_of_bind_pure failed)
      | declared id =>
        rcases (bind_eq_error ..).1 failed with failed | ⟨_, -, failed⟩
        · exact .container own failed
        · exact fails_of_reference (error_of_bind_pure failed)
termination_by sizeOf use

end Types

section Drafting

variable {ε μ : Type} {rules : Rules ε μ} {c : NamedCatalog} {fault : Unsupported}

theorem fails_of_fields {d : Declaration} (inside : d ∈ c.catalog.declarations)
    {members : List (Member × String)} (listed : ∀ entry ∈ members, entry.1 ∈ d.shape.members)
    (failed : rules.fields c members = .error fault) :
    HintFails rules.keys c.catalog fault ∨ rules.Refuses c fault := by
  induction members with
  | nil => cases failed
  | cons entry rest ih =>
    obtain ⟨m, name⟩ := entry
    obtain ⟨first, later⟩ := List.forall_mem_cons.1 listed
    rcases (bind_eq_error ..).1 failed with failed | ⟨_, -, failed⟩
    · exact .inl (fails_of_ofUse (fun level member =>
        Catalog.mem_uses_of_mem_shape inside (Shape.type_mem_uses first) member) failed)
    rcases (bind_eq_error ..).1 failed with failed | ⟨_, -, failed⟩
    · exact .inr (.member inside first failed)
    · exact ih later (error_of_bind_pure failed)

theorem fails_of_cases {entries : List (Nat × String × String)}
    (failed : rules.cases c entries = .error fault) :
    HintFails rules.keys c.catalog fault ∨ rules.Refuses c fault := by
  induction entries with
  | nil => cases failed
  | cons entry rest ih =>
    obtain ⟨id, member, constant⟩ := entry
    simp only [Rules.cases] at failed
    split at failed
    · rename_i d declared
      split at failed
      · rcases (bind_eq_error ..).1 failed with failed | ⟨reference, known, failed⟩
        · exact .inl (fails_of_reference failed)
        rcases (bind_eq_error ..).1 failed with failed | ⟨_, -, failed⟩
        · exact .inr (.variant declared known failed)
        · exact ih (error_of_bind_pure failed)
      · exact ih failed
    · exact ih failed

theorem fails_of_body {d : Declaration} (inside : d ∈ c.catalog.declarations)
    {names : Naming.Names} (failed : rules.body c names d.shape = .error fault) :
    HintFails rules.keys c.catalog fault ∨ rules.Refuses c fault := by
  have ofMembers {members : List Member} (own : d.shape.members = members)
      (failed : rules.fields c (members.zip names.members) = .error fault) :
      HintFails rules.keys c.catalog fault ∨ rules.Refuses c fault :=
    fails_of_fields inside (fun entry member => own ▸ (List.of_mem_zip member).1) failed
  cases shape : d.shape with
  | record members additional =>
    rw [shape] at failed
    exact ofMembers (by rw [shape, Shape.members]) (error_of_bind_pure failed)
  | enumeration values =>
    rw [shape] at failed
    cases failed
  | union tag variants =>
    rw [shape] at failed
    exact fails_of_cases (error_of_bind_pure failed)
  | variant parent tagValue members additional =>
    rw [shape] at failed
    rcases (bind_eq_error ..).1 failed with failed | ⟨_, -, failed⟩
    · exact .inl (fails_of_reference failed)
    · exact ofMembers (by rw [shape, Shape.members]) (error_of_bind_pure failed)
  | wrapper inner =>
    rw [shape] at failed
    have used : inner ∈ d.shape.uses := by
      rw [shape]
      exact List.mem_cons_self
    exact .inl (fails_of_ofUse (fun level => Catalog.mem_uses_of_mem_shape inside used)
      (error_of_bind_pure failed))

theorem fails_of_draftAll {entries : List (Declaration × Naming.Names)}
    (numbered : ∀ entry ∈ entries, ∃ id, c.catalog.declaration? id = some entry.1 ∧
      c.names[id]? = some entry.2)
    (failed : rules.draftAll c entries = .error fault) :
    HintFails rules.keys c.catalog fault ∨ rules.Refuses c fault := by
  induction entries with
  | nil => cases failed
  | cons entry rest ih =>
    obtain ⟨d, names⟩ := entry
    obtain ⟨⟨id, declared, named⟩, later⟩ := List.forall_mem_cons.1 numbered
    rcases (bind_eq_error ..).1 failed with failed | ⟨_, -, failed⟩
    · rcases (bind_eq_error ..).1 failed with failed | ⟨_, -, failed⟩
      · exact .inr (.declaration declared named failed)
      · exact fails_of_body (List.mem_of_getElem? declared) (error_of_bind_pure failed)
    · exact ih later (error_of_bind_pure failed)

theorem fails_of_drafts (failed : rules.drafts c = .error fault) :
    HintFails rules.keys c.catalog fault ∨ rules.Refuses c fault := by
  refine fails_of_draftAll (fun entry member => ?_) failed
  obtain ⟨marked, kept, rfl⟩ := List.mem_map.1 member
  obtain ⟨id, found⟩ := List.mem_iff_getElem?.1 (List.of_mem_zip (List.mem_filter.1 kept).1).1
  exact ⟨id, List.getElem?_zip_eq_some.1 found⟩

end Drafting

section Languages

variable {c : NamedCatalog} {fault : Unsupported}

theorem JavaClasses.not_refuses : ¬ rules.Refuses c fault := by
  intro refuses
  cases refuses with
  | declaration _ _ failed => cases failed
  | member _ _ failed => cases failed
  | variant _ _ failed => cases failed

namespace RustModule

/-- Rust refuses a text that is to name derive macros. -/
theorem exists_of_refuses (refuses : rules.Refuses c fault) :
    ∃ d ∈ c.catalog.declarations, hints.string? deriveKey d.metadata d.pointer = .error fault ∨
      ∃ text entry, hints.string? deriveKey d.metadata d.pointer = .ok (some text) ∧
        (hints.reject d.pointer deriveKey (.notDerivePath entry) : Except Unsupported Unit) =
          .error fault := by
  cases refuses with
  | @declaration _ d _ declared _ failed =>
    refine ⟨d, List.mem_of_getElem? declared, ?_⟩
    rcases (bind_eq_error ..).1 failed with failed | ⟨hint, read, failed⟩
    · exact .inl failed
    cases hint with
    | none => cases failed
    | some text =>
      simp only at failed
      split at failed
      · rename_i entry _
        cases failed
        exact .inr ⟨text, entry, read, rfl⟩
      · cases failed
  | member _ _ failed => cases failed
  | variant _ _ failed => cases failed

end RustModule

/-- TypeScript refuses a variant whose parent is no union. -/
theorem TypeScriptModule.exists_of_refuses (refuses : rules.Refuses c fault) :
    ∃ d ∈ c.catalog.declarations, ∃ parent, d.shape.IsVariantOf parent ∧
      Naming.tag? c.catalog parent = none ∧
      fault = ⟨.typescript, d.pointer, .variantOutsideUnion⟩ := by
  cases refuses with
  | @declaration _ d _ declared _ failed =>
    simp only [rules, variantTag] at failed
    split at failed
    · rename_i parent _ _ _ shape
      split at failed
      · cases failed
      · rename_i untagged
        cases failed
        exact ⟨d, List.mem_of_getElem? declared, parent, ⟨_, _, _, shape⟩, untagged, rfl⟩
    · cases failed
  | member _ _ failed => cases failed
  | variant _ _ failed => cases failed

namespace GoPackage

/-- A name that cannot stand in a struct tag is refused where it is. -/
theorem tagName_eq_error {name : String} {here : Pointer} : tagName name here = .error fault ↔
    isTagName name = false ∧ fault = ⟨.go, here, .notTagName name⟩ := by
  unfold tagName
  cases valid : isTagName name with
  | false => simp [eq_comm]
  | true =>
    simp only [Bool.not_true, Bool.false_eq_true, if_false, Bool.true_eq_false, false_and,
      iff_false]
    split <;> exact nofun

/-- How Go refuses a declaration: it is a union, and its tag field cannot be written. -/
inductive TagFieldFails (d : Declaration) (names : Naming.Names) (tag : String)
    (fault : Unsupported) : Prop
  | noMember (none : names.tagMember = none) (same : fault = ⟨.go, d.pointer, .noTagMember⟩)
  | hint (failed : hints.string? discriminatorKey d.metadata d.pointer = .error fault)
  | tagName (failed : tagName tag (d.pointer.child "discriminator") = .error fault)

theorem tagFieldFails {d : Declaration} {names : Naming.Names}
    (failed : tagField d names = .error fault) :
    ∃ tag variants, d.shape = .union tag variants ∧ TagFieldFails d names tag fault := by
  unfold tagField at failed
  split at failed
  · rename_i tag variants shape
    refine ⟨tag, variants, shape, ?_⟩
    split at failed
    · rename_i none
      cases failed
      exact .noMember none rfl
    rcases (bind_eq_error ..).1 failed with failed | ⟨_, -, failed⟩
    · exact .hint failed
    · exact .tagName (error_of_bind_pure failed)
  · cases failed

theorem checkVariant_eq_error {d : Declaration} {reference : Reference}
    (failed : checkVariant d reference = .error fault) :
    isEmbeddable reference.text = false ∧
      (hints.reject d.pointer hints.type (.notEmbeddable reference.text) :
        Except Unsupported Unit) = .error fault := by
  unfold checkVariant at failed
  split at failed
  · cases failed
  · rename_i other
    exact ⟨Bool.eq_false_iff.2 other, failed⟩

end GoPackage

end Languages

/-- Where a target fails, the drafts of its language do. -/
inductive Target.DraftsFail (t : Target) (catalog : Catalog) (fault : Unsupported) : Prop
  | java (language : t.language = .java)
      (failed : JavaClasses.rules.drafts (.ofCatalog JavaClasses.naming catalog) = .error fault)
  | rust (language : t.language = .rust)
      (failed : RustModule.rules.drafts (.ofCatalog RustModule.naming catalog) = .error fault)
  | go (language : t.language = .go)
      (failed : GoPackage.rules.drafts (.ofCatalog GoPackage.naming catalog) = .error fault)
  | typescript (language : t.language = .typescript)
      (failed : TypeScriptModule.rules.drafts (.ofCatalog TypeScriptModule.naming catalog) =
        .error fault)

theorem Target.draftsFail_of_render {t : Target} {catalog : Catalog} {fault : Unsupported}
    (failed : t.render catalog = .error fault) : t.DraftsFail catalog fault := by
  obtain ⟨language, package⟩ := t
  have failed := error_of_bind_pure failed
  cases language with
  | java => exact .java rfl (error_of_bind_pure failed)
  | rust => exact .rust rfl (error_of_bind_pure (error_of_bind_pure failed))
  | go => exact .go rfl (error_of_bind_pure failed)
  | typescript => exact .typescript rfl (error_of_bind_pure failed)

end Binding

end SchemaBindings
