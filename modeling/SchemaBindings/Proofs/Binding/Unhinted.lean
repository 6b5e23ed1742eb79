import SchemaBindings.Proofs.Binding.Emitted
import SchemaBindings.Proofs.Binding.GoReading
import SchemaBindings.Proofs.Binding.JavaLines
import SchemaBindings.Proofs.Binding.JavaReading
import SchemaBindings.Proofs.Binding.RustLines
import SchemaBindings.Proofs.Binding.RustReading
import SchemaBindings.Proofs.Binding.TypeScriptLines
import SchemaBindings.Proofs.Binding.TypeScriptReading

/-! Without hints every declaration is written, and every text for a type is the name of one. Then
each language tells of all drafts as it does of those that are spelled with identifiers. -/

namespace SchemaBindings.Binding

open Catalog (Linked Mirrors Suppressed)
open Naming (Capital IsIdentifier Names)
open Text (OneLine)

/-- No hint stands on a declaration or on a use of a type. -/
structure Unhinted (catalog : Catalog) : Prop where
  declarations : ∀ d ∈ catalog.declarations, ∀ key, d.metadata.hint? key = none
  uses : ∀ use ∈ catalog.uses, ∀ key, use.metadata.hint? key = none

section Catalogs

variable {schema : Schema} {rootName : String} {catalog : Catalog}

theorem unhinted_of_mirrors (mirrors : Mirrors schema rootName catalog)
    (plain : ∀ node, Schema.Contains schema node → node.metadata.extensions = []) :
    Unhinted catalog := by
  have each (node : Node) (within : Schema.Contains schema node) (key : String) :
      node.metadata.hint? key = none := by
    rw [Metadata.hint?, plain node within]
    rfl
  obtain ⟨declarations, uses⟩ := mirrors.forall_metadata
    (P := fun metadata => ∀ key, metadata.hint? key = none) each
  exact ⟨declarations, uses⟩

theorem not_suppressed_of_unhinted {key : String}
    (unhinted : ∀ d ∈ catalog.declarations, d.metadata.hint? key = none) {id : Nat} :
    ¬ Suppressed key catalog id := by
  intro suppressed
  induction suppressed with
  | hinted declared hint =>
    rw [unhinted _ (List.mem_of_getElem? declared)] at hint
    cases hint
  | nested _ _ _ ih => exact ih

end Catalogs

section Drafting

variable {ε μ : Type} {rules : Rules ε μ} {keys : HintKeys} {c : NamedCatalog}

/-- Nothing is replaced, so everything is written. -/
theorem written_of_unhinted {schema : Schema} {rootName : String}
    (mirrors : Mirrors schema rootName c.catalog) (linked : Linked c.catalog)
    (unhinted : ∀ d ∈ c.catalog.declarations, d.metadata.hint? rules.keys.type = none) :
    rules.written c = c.catalog.declarations.zip c.names := by
  have count : (replaced rules.keys.type c.catalog).length = c.catalog.declarations.length :=
    Catalog.length_replaced c.catalog
  have kept : ∀ entry ∈ (c.catalog.declarations.zip c.names).zip
      (replaced rules.keys.type c.catalog), (!entry.2) = true := by
    intro entry member
    obtain ⟨i, marked⟩ := List.mem_iff_getElem?.1 (List.of_mem_zip member).2
    cases mark : entry.2 with
    | false => rfl
    | true =>
      rw [mark, Catalog.mark_eq_true_iff linked (mirrors.ownersFirst linked)] at marked
      exact (not_suppressed_of_unhinted unhinted marked).elim
  rw [Rules.written, List.filter_eq_self.2 kept]
  refine List.map_fst_zip ?_
  rw [count, List.length_zip]
  exact Nat.min_le_left ..

/-- What has no hint for its type is referred to by its name. -/
theorem text_of_unhinted {id : Nat} {reference : Reference}
    (unhinted : ∀ d, c.catalog.declaration? id = some d → d.metadata.hint? keys.type = none)
    (known : c.reference keys id = .ok reference) : reference.text = c.typeName id := by
  unfold NamedCatalog.reference at known
  split at known
  · cases known
    rfl
  · rename_i d declared
    rw [HintKeys.type?, HintKeys.string?, unhinted d declared] at known
    cases known
    rfl

variable (unhinted : Unhinted c.catalog)

include unhinted

theorem Unhinted.written {schema : Schema} {rootName : String}
    (mirrors : Mirrors schema rootName c.catalog) (linked : Linked c.catalog) :
    rules.written c = c.catalog.declarations.zip c.names :=
  written_of_unhinted mirrors linked fun d member => unhinted.declarations d member _

theorem Unhinted.reference {id : Nat} {reference : Reference}
    (known : c.reference keys id = .ok reference) : reference.text = c.typeName id :=
  text_of_unhinted (fun d found => unhinted.declarations d (List.mem_of_getElem? found) _) known

theorem Unhinted.texts {Q : String → Prop} (named : ∀ id, Q (c.typeName id)) :
    Texts keys Q c where
  named := named
  declarations d member key _ text found := by
    rw [unhinted.declarations d member key] at found
    cases found
  uses use member key _ text found := by
    rw [unhinted.uses use member key] at found
    cases found

end Drafting

/-- Every declaration has names, all of which are identifiers, and there is no hint. -/
structure PlainlyNamed (c : NamedCatalog) : Prop where
  unhinted : Unhinted c.catalog
  count : c.names.length = c.catalog.size
  each : ∀ n ∈ c.names, n.Each IsIdentifier

namespace PlainlyNamed

variable {ε μ : Type} {rules : Rules ε μ} {c : NamedCatalog} (plain : PlainlyNamed c)
  {drafts : List (Draft ε μ)} (read : rules.drafts c = .ok drafts)

include plain

theorem isIdentifier_typeName {id : Nat} (bound : id < c.catalog.size) :
    IsIdentifier (c.typeName id) := by
  rw [← plain.count] at bound
  have found := List.getElem?_eq_getElem bound
  rw [typeName_eq found]
  exact (plain.each _ (List.mem_of_getElem? found)).type

/-- What a union refers to is declared, so it has a name. -/
theorem references_of_body {names : Names} {shape : Shape} {body : Body μ}
    (bodyOf : BodyOf rules c names shape body) :
    ∀ reference ∈ body.references, IsIdentifier reference.text := by
  cases bodyOf with
  | union read =>
    refine List.forall_mem_map.2 fun k listed => ?_
    obtain ⟨entry, -, own⟩ := caseOf_of_mem_cases read listed
    obtain ⟨_, _, _, _, declared, -⟩ := own.variant
    rw [plain.unhinted.reference own.reference]
    exact plain.isIdentifier_typeName (Catalog.lt_size_of_declaration? declared)
  | _ => exact List.forall_mem_nil _

include read

theorem spelled {P : String → Prop} (each : ∀ n ∈ c.names, n.Each P) {Q : String → Prop}
    (empty : Q "") (identifier : ∀ name, IsIdentifier name → Q name) :
    ∀ d ∈ drafts, d.Spelled P Q :=
  spelled_of_drafts (plain.unhinted.texts (typeName_of_each empty fun n member =>
    (plain.each n member).imp identifier)) each read

theorem wordy {P : String → Prop} (each : ∀ n ∈ c.names, n.Each P) :
    ∀ d ∈ drafts, d.Spelled P fun text => ∀ char ∈ text.toList, isWordChar char = true :=
  plain.spelled read each (List.forall_mem_nil _) fun _ => isWordChar_of_isIdentifier

theorem printable : ∀ d ∈ drafts, d.Printable :=
  plain.spelled read plain.each List.not_mem_nil fun _ => oneLine_of_isIdentifier

theorem references : ∀ d ∈ drafts, ∀ reference ∈ d.body.references,
    IsIdentifier reference.text := by
  intro d member
  obtain ⟨_, _, _, -, -, drafted⟩ := exists_of_mem_drafts read member
  obtain ⟨-, -, bodyRead⟩ := draft_eq_ok drafted
  exact plain.references_of_body (bodyOf_of_body bodyRead)

end PlainlyNamed

section Told

variable {c : NamedCatalog} (plain : PlainlyNamed c)

include plain

theorem JavaClasses.readBack_bodyLines {drafts : List (Draft Unit Unit)}
    (read : rules.drafts c = .ok drafts) {d : Draft Unit Unit} (member : d ∈ drafts) :
    readBack .java (Text.unlines (bodyLines d.name d.described d.body)) =
      d.body.told d.name [] (unionTold d.name) fun _ => [] := by
  have printable := plain.printable read d member
  exact (tells_bodyLines printable.name printable.names
    (plain.references read d member)).readBack (leaves_bodyLines printable)

theorem RustModule.readBack_itemLines {drafts : List (Draft (List String) Unit)}
    (read : rules.drafts c = .ok drafts) (edges : List (List Nat)) {d : Draft (List String) Unit}
    (member : d ∈ drafts) :
    readBack .rust (Text.unlines (itemLines edges d)) =
      d.body.told d.name [] (unionTold d.name) fun _ => [] := by
  have printable := plain.printable read d member
  exact (tells_itemLines edges printable.name printable.names
    (plain.references read d member)).readBack
      (leaves_itemLines edges printable (derived_of_drafts read d member))

theorem TypeScriptModule.readBack_itemLines {drafts : List (Draft (Option String) Unit)}
    (read : rules.drafts c = .ok drafts) {d : Draft (Option String) Unit} (member : d ∈ drafts) :
    readBack .typescript (Text.unlines (itemLines d)) =
      d.body.told d.name (tagSlots d.extra d.body) (fun _ => unionTold d.name) fun inner =>
        [.alternatives (alternativesIn ((typeText inner).toList ++ ";".toList))] := by
  have printable := plain.printable read d member
  have blank : Tells .typescript [""] [] := tells_nothing rfl
  have tells := blank.append (tells_bodyLines printable.name d.extra printable.names
    (plain.wordy read plain.each d member).texts (plain.references read d member))
  exact tells.readBack (leaves_itemLines printable)

end Told

section Fields

variable {μ : Type} {body : Body μ} {f : Field μ}

theorem name_mem_of_mem_fields (listed : f ∈ body.fields) : f.name ∈ body.names := by
  cases body with
  | record => exact List.mem_map_of_mem listed
  | variant => exact List.mem_map_of_mem listed
  | _ => cases listed

theorem text_mem_of_mem_fields (listed : f ∈ body.fields) {text : String}
    (inside : text ∈ f.type.texts) : text ∈ body.texts := by
  have typed : f.type ∈ body.types := by
    cases body with
    | record => exact List.mem_map_of_mem listed
    | variant => exact List.mem_map_of_mem listed
    | _ => cases listed
  exact List.mem_append_left _ (List.mem_flatMap.2 ⟨_, typed, inside⟩)

end Fields

namespace GoPackage

theorem tagged_of_body {c : NamedCatalog} {names : Names} {shape : Shape} {body : Body String}
    (bodyOf : BodyOf rules c names shape body) :
    ∀ f ∈ body.fields, ∃ here, tagName f.wireName here = .ok f.extra := by
  have ofFields {members : List (Member × String)} {fields : List (Field String)}
      (read : rules.fields c members = .ok fields) :
      ∀ f ∈ fields, ∃ here, tagName f.wireName here = .ok f.extra := by
    intro f listed
    obtain ⟨entry, -, own⟩ := fieldOf_of_mem_fields read listed
    have tagged : tagName entry.1.wireName entry.1.type.pointer = .ok f.extra := own.extra
    exact ⟨_, own.wireName.symm ▸ tagged⟩
  cases bodyOf with
  | record read => exact ofFields read
  | variant _ read => exact ofFields read
  | _ => exact List.forall_mem_nil _

/-- Without a hint for it, the tag of a union is a string. -/
theorem exists_tagField {d : Declaration} {names : Names} {tag : String} {variants : List Nat}
    (plain : d.metadata.hint? discriminatorKey = none) (shape : d.shape = .union tag variants)
    {extra : Option TagField} (read : tagField d names = .ok extra) :
    ∃ t, extra = some t ∧ names.tagMember = some t.member ∧ t.type = "string" ∧
      ∃ here, tagName tag here = .ok t.tagName := by
  unfold tagField at read
  simp only [shape] at read
  split at read
  · cases read
  · rename_i member known
    obtain ⟨type, typeRead, read⟩ := (bind_eq_ok ..).1 read
    obtain ⟨name, nameRead, read⟩ := (bind_eq_ok ..).1 read
    rw [HintKeys.string?, plain] at typeRead
    cases typeRead
    cases read
    exact ⟨_, rfl, known, rfl, _, nameRead⟩

variable {c : NamedCatalog} (plain : PlainlyNamed c) (capital : ∀ n ∈ c.names, n.Each Capital)
  {drafts : List (Draft (Option TagField) String)} (read : rules.drafts c = .ok drafts)
  {d : Draft (Option TagField) String} (member : d ∈ drafts)

include plain capital read member

theorem spelled_of_plain :
    d.Spelled (fun name => IsIdentifier name ∧ Capital name)
      fun text => ∀ char ∈ text.toList, isWordChar char = true := by
  refine plain.wordy read (fun n member => ?_) d member
  obtain ⟨type, members, constants, tagMember⟩ := plain.each n member
  have own := capital n member
  exact ⟨⟨type, own.type⟩, fun name inside => ⟨members name inside, own.members name inside⟩,
    fun name inside => ⟨constants name inside, own.constants name inside⟩,
    fun name tagged => ⟨tagMember name tagged, own.tagMember name tagged⟩⟩

theorem fieldRead_of_plain : ∀ f ∈ d.body.fields, FieldRead f := by
  intro f listed
  have spelled := spelled_of_plain plain capital read member
  obtain ⟨_, _, _, -, -, drafted⟩ := exists_of_mem_drafts read member
  obtain ⟨-, -, bodyRead⟩ := draft_eq_ok drafted
  obtain ⟨named, upper⟩ := spelled.names f.name (name_mem_of_mem_fields listed)
  exact ⟨named, upper, fun text inside => spelled.texts text (text_mem_of_mem_fields listed inside),
    tagged_of_body (bodyOf_of_body bodyRead) f listed⟩

theorem caseRead_of_plain {tag : String} {cases : List Case} (union : d.body = .union tag cases) :
    ∀ k ∈ cases, CaseRead k := by
  intro k listed
  have spelled := spelled_of_plain plain capital read member
  have inside : k.member ∈ d.body.names := by
    rw [union]
    exact List.mem_append_left _ (List.mem_map_of_mem listed)
  have referred : k.reference ∈ d.body.references := by
    rw [union]
    exact List.mem_map_of_mem listed
  obtain ⟨named, upper⟩ := spelled.names _ inside
  exact ⟨named, upper, plain.references read d member _ referred⟩

theorem tagRead_of_plain {tag : String} {cases : List Case} (union : d.body = .union tag cases) :
    ∃ t, d.extra = some t ∧ TagRead tag t := by
  obtain ⟨id, declaration, names, declared, named, drafted⟩ := exists_of_mem_drafts read member
  obtain ⟨-, -, bodyRead⟩ := draft_eq_ok drafted
  obtain ⟨variants, shape, -⟩ := shape_of_union (union ▸ bodyRead)
  have inside := List.mem_of_getElem? named
  obtain ⟨t, same, tagMember, typed, tagged⟩ := exists_tagField
    (plain.unhinted.declarations _ (List.mem_of_getElem? declared) _) shape (extra_of_draft drafted)
  exact ⟨t, same, (plain.each names inside).tagMember _ tagMember,
    (capital names inside).tagMember _ tagMember, typed, tagged⟩

theorem readBack_itemLines (edges : List (List Nat)) :
    readBack .go (Text.unlines ("" :: itemLines edges d)) =
      d.body.told d.name [] (fun wireName cases => unionTold d.name wireName
        ((d.extra.map TagField.member).getD "") cases) fun _ => [] := by
  have spelled := spelled_of_plain plain capital read member
  have texts : Texts hints (OneLine ·.toList) c :=
    plain.unhinted.texts (typeName_of_each List.not_mem_nil fun n inside =>
      (plain.each n inside).imp fun _ => oneLine_of_isIdentifier)
  have hinted : ∀ d ∈ c.catalog.declarations,
      HintTexts (ownKeys .go) (OneLine ·.toList) d.metadata := by
    intro d inside key _ text found
    rw [plain.unhinted.declarations d inside key] at found
    cases found
  have printable := printable_of_drafts texts plain.each hinted read d member
  have choices : ∀ values, d.body = .enumeration values → ∀ k ∈ values,
      IsIdentifier k.constant ∧ Capital k.constant := by
    intro values same k listed
    refine spelled.names _ ?_
    rw [same]
    exact List.mem_map_of_mem listed
  have union : ∀ wireName cases, d.body = .union wireName cases →
      ∃ t, d.extra = some t ∧ TagRead wireName t ∧ ∀ k ∈ cases, CaseRead k := by
    intro wireName cases same
    obtain ⟨t, tag, tagRead⟩ := tagRead_of_plain plain capital read member same
    exact ⟨t, tag, tagRead, caseRead_of_plain plain capital read member same⟩
  have blank : Tells .go [""] [] := tells_nothing rfl
  have tells := blank.append (tells_bodyLines (closesCycle edges d.id) spelled.name.1
    (fieldRead_of_plain plain capital read member) choices union)
  exact tells.readBack (.cons (leaves_code (by decide)) (leaves_itemLines edges printable))

end GoPackage

end SchemaBindings.Binding
