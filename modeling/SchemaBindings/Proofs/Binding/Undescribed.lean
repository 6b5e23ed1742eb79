import SchemaBindings.Proofs.Binding.Emitted
import SchemaBindings.Proofs.Binding.GoLines
import SchemaBindings.Proofs.Binding.JavaLines
import SchemaBindings.Proofs.Binding.RustLines
import SchemaBindings.Proofs.Binding.TypeScriptLines

/-! Descriptions are inert: a schema is rendered without them as it is with them, but for doc
comments. -/

namespace SchemaBindings

/-- Metadata with neither a description nor descriptions of enumerated values. -/
def Metadata.undescribed (m : Metadata) : Metadata :=
  { m with description := none, enumDescriptions := [] }

namespace Binding

open Naming (IsIdentifier)
open Text (OneLine)

/-- Both succeed with results that are related, or both fail in the same way. -/
inductive SameOutcome {ε α : Type} (R : α → α → Prop) : Except ε α → Except ε α → Prop
  | ok {a b : α} (related : R a b) : SameOutcome R (.ok a) (.ok b)
  | error (failure : ε) : SameOutcome R (.error failure) (.error failure)

/-- The same files in the same order, but for doc comments. -/
def SameCode (language : Language) (files others : List File) : Prop :=
  List.Forall₂ (fun file other => file.name = other.name ∧
    withoutDocs language file.contents = withoutDocs language other.contents) files others

section Heads

theorem JavaClasses.importsOf_redescribe (g : Option String → Option String) (body : Body Unit) :
    importsOf (body.redescribe g) = importsOf body := by
  have types : typesOf (body.redescribe g) = typesOf body := by
    cases body <;> simp [typesOf, Body.redescribe, Field.redescribe]
  have ofClass (fields : List (Field Unit)) (additional : Bool) (i : Import) :
      classUses (fields.map (Field.redescribe g)) additional i = classUses fields additional i := by
    have any : (fields.map (Field.redescribe g)).any (!·.required) = fields.any (!·.required) := by
      rw [List.any_map]
      rfl
    cases i <;> simp only [classUses, any, List.isEmpty_map]
  have annotated (i : Import) : annotates (body.redescribe g) i = annotates body i := by
    cases body with
    | record fields additional => exact ofClass fields additional i
    | variant base tagValue fields additional => exact ofClass fields additional i
    | _ => rfl
  rw [importsOf, importsOf]
  refine congrArg _ (List.filter_congr fun i _ => ?_)
  simp only [uses, annotated, types]

/-- The same class, with the same head, is left of a file and of the one without descriptions. -/
theorem same_draftFile {d : Draft Unit Unit} (printable : d.Printable) {package : String}
    (single : OneLine package.toList) :
    withoutDocs .java (JavaClasses.draftFile package d).contents =
      withoutDocs .java (JavaClasses.draftFile package d.undescribed).contents := by
  have head : Begun ("package " ++ package ++ ";") :=
    .append (.append (by decide) single) (by decide)
  have plain {i : String} (member : i ∈ JavaClasses.importsOf d.body) :
      Begun ("import " ++ i ++ ";") := by
    obtain ⟨known, -, rfl⟩ := List.mem_map.1 member
    exact .append (.append (by decide) (by cases known <;> decide)) (by decide)
  simp only [JavaClasses.draftFile, Draft.redescribe, JavaClasses.importsOf_redescribe]
  have notice : Leaves .java ["// " ++ notice] ["// " ++ notice] := fun _ => rfl
  have blank : Leaves .java [""] [""] := leaves_code (by decide)
  have imported : Leaves .java
      (if (JavaClasses.importsOf d.body).isEmpty then []
        else (JavaClasses.importsOf d.body).map (fun i => "import " ++ i ++ ";") ++ [""])
      (if (JavaClasses.importsOf d.body).isEmpty then []
        else (JavaClasses.importsOf d.body).map (fun i => "import " ++ i ++ ";") ++ [""]) := by
    split
    · exact .nil
    · exact (leaves_codes (List.forall_mem_map.2 fun i member => (plain member).code)).append blank
  have before := (notice.append (blank.append (.cons (leaves_begun head) blank))).append imported
  exact before.same_behind (JavaClasses.leaves_bodyLines printable)

theorem GoPackage.imports_redescribe (g : Option String → Option String)
    (drafts : List (Draft (Option TagField) String)) :
    imports (drafts.map (Draft.redescribe g)) = imports drafts := by
  have union (body : Body String) : isUnion (body.redescribe g) = isUnion body := by
    cases body <;> rfl
  have time (body : Body String) : usesTime (body.redescribe g) = usesTime body := by
    have any (fields : List (Field String)) :
        (fields.map (Field.redescribe g)).any (·.type.usesPrimitive .timestamp) =
          fields.any (·.type.usesPrimitive .timestamp) := by
      rw [List.any_map]
      rfl
    cases body with
    | record fields additional => exact any fields
    | variant base tagValue fields additional => exact any fields
    | _ => rfl
  simp only [imports, List.any_map, Function.comp_def, Draft.redescribe, union, time]

theorem leaves_packageLines {package : String} (single : OneLine package.toList) :
    Leaves .go ["// " ++ notice, "", "package " ++ package] ["", "package " ++ package] := by
  have head : Begun ("package " ++ package) := .append (by decide) single
  have notice : Leaves .go ["// " ++ notice] [] := fun _ => rfl
  exact notice.append (.cons (leaves_code (by decide)) (leaves_begun head))

theorem leaves_importLines (drafts : List (Draft (Option GoPackage.TagField) String)) :
    Leaves .go (GoPackage.importLines (GoPackage.imports drafts))
      (GoPackage.importLines (GoPackage.imports drafts)) := by
  have plain : ∀ p ∈ GoPackage.imports drafts, Code ("\t\"" ++ p ++ "\"") := by
    refine List.forall_mem_append.2 ⟨?_, ?_⟩ <;> split <;> decide
  unfold GoPackage.importLines
  split
  · exact .nil
  · exact ((leaves_codes (by decide)).append (leaves_codes (List.forall_mem_map.2 plain))).append
      (leaves_code (by decide))

end Heads

section Files

variable {c : NamedCatalog}

theorem keeps_undescribed (owned : List String) :
    Keeps owned (fun _ => none) Metadata.undescribed where
  described _ := rfl
  enumDescribed _ _ := rfl
  hint _ _ _ := rfl

theorem sameCode_single {language : Language} {name : String}
    {head kept lines others : List String} (before : Leaves language head kept)
    (leaves : Leaves language lines others) :
    SameCode language [⟨name, Text.unlines (head ++ lines)⟩]
      [⟨name, Text.unlines (head ++ others)⟩] :=
  .cons ⟨rfl, before.same_behind leaves⟩ .nil

section Drafts

variable {ε μ : Type} {rules : Rules ε μ}
  (kept : rules.Keeps (fun _ => none) Metadata.undescribed)
  (told : ∀ d ∈ c.catalog.declarations, d.shape.DescribedBy d.metadata)

include kept told

/-- What is written from drafts is related when it is so for drafts without descriptions. -/
theorem sameOutcome_of_drafts {α : Type} {R : α → α → Prop} {write : List (Draft ε μ) → α}
    (related : ∀ drafts, rules.drafts c = .ok drafts →
      R (write drafts) (write (drafts.map Draft.undescribed))) :
    SameOutcome R (rules.drafts c >>= fun drafts => pure (write drafts))
      (rules.drafts (c.mapMetadata Metadata.undescribed) >>= fun drafts =>
        pure (write drafts)) := by
  rw [drafts_mapMetadata kept c told]
  cases read : rules.drafts c with
  | error failure => exact .error failure
  | ok drafts => exact .ok (related drafts read)

end Drafts

theorem unsignedIn_redescribe (g : Option String → Option String)
    (drafts : List (Draft Unit Unit)) :
    JavaClasses.unsignedIn (drafts.map (Draft.redescribe g)) = JavaClasses.unsignedIn drafts := by
  have types (body : Body Unit) :
      JavaClasses.typesOf (body.redescribe g) = JavaClasses.typesOf body := by
    cases body <;> simp [JavaClasses.typesOf, Body.redescribe, Field.redescribe]
  simp only [JavaClasses.unsignedIn, List.any_map, Function.comp_def, Draft.redescribe, types]

theorem sameOutcome_files (t : Target)
    (told : ∀ d ∈ c.catalog.declarations, d.shape.DescribedBy d.metadata)
    (single : OneLine t.package.toList) (each : ∀ n ∈ c.names, n.Each IsIdentifier)
    (texts : Texts (hintsOf t.language) (OneLine ·.toList) c)
    (hinted : ∀ d ∈ c.catalog.declarations,
      HintTexts (ownKeys t.language) (OneLine ·.toList) d.metadata) :
    SameOutcome (SameCode t.language) (t.files c)
      (t.files (c.mapMetadata Metadata.undescribed)) := by
  obtain ⟨language, package⟩ := t
  cases language with
  | java =>
    refine sameOutcome_of_drafts (keeps_java (keeps_undescribed _)) told fun drafts read => ?_
    have printable := spelled_of_drafts texts each read
    rw [unsignedIn_redescribe, List.map_map]
    refine List.rel_append (List.forall₂_map_left_iff.2 (List.forall₂_map_right_iff.2 ?_))
      (List.forall₂_same.2 fun _ _ => ⟨rfl, rfl⟩)
    exact List.forall₂_same.2 fun d member => ⟨rfl, same_draftFile (printable d member) single⟩
  | rust =>
    rw [Target.files, Target.files, RustModule.files_eq, RustModule.files_eq,
      NamedCatalog.catalog_mapMetadata, holdings_mapMetadata]
    refine sameOutcome_of_drafts (keeps_rust (keeps_undescribed _)) told fun drafts read => ?_
    have printable := spelled_of_drafts texts each read
    have derived := RustModule.derived_of_drafts read
    have notice : Leaves .rust ["//! " ++ notice, ""] ["//! " ++ notice, ""] := fun _ => rfl
    rw [List.flatMap_map]
    exact sameCode_single notice (.flatMap fun d member =>
      RustModule.leaves_itemLines _ (printable d member) (derived d member))
  | go =>
    rw [Target.files, Target.files, GoPackage.files, GoPackage.files,
      NamedCatalog.catalog_mapMetadata, holdings_mapMetadata]
    refine sameOutcome_of_drafts (keeps_go (keeps_undescribed _)) told fun drafts read => ?_
    have printable := GoPackage.printable_of_drafts texts each hinted read
    rw [GoPackage.imports_redescribe, List.flatMap_map]
    exact sameCode_single ((leaves_packageLines single).append (leaves_importLines drafts))
      (.flatMap fun d member =>
        .cons (leaves_code (by decide)) (GoPackage.leaves_itemLines _ (printable d member)))
  | typescript =>
    refine sameOutcome_of_drafts (keeps_typescript (keeps_undescribed _)) told fun drafts read => ?_
    have printable := spelled_of_drafts texts each read
    have notice : Leaves .typescript ["// " ++ notice] ["// " ++ notice] := fun _ => rfl
    rw [List.flatMap_map]
    exact sameCode_single notice (.flatMap fun d member =>
      TypeScriptModule.leaves_itemLines (printable d member))

end Files

theorem hintsOf_subset (language : Language) : ∀ key ∈ (hintsOf language).all,
    key ∈ ownKeys language := by
  cases language <;> decide

/-- Descriptions are inert. A target renders a schema without its descriptions as it renders the
schema: it fails in the same way, or gives the same types and files, but for doc comments. A text
with a line feed could break out of its line, so no package and no hint has one. -/
theorem sameOutcome_undescribed {document : Json} {schema : Schema}
    (read : Schema.ofJson document = .ok schema) (rootName : String) (t : Target)
    (package : '\n' ∉ t.package.toList)
    (hinted : ∀ node, Schema.Contains schema node → ∀ key ∈ ownKeys t.language, ∀ text,
      node.metadata.hint? key = some (.string text) → '\n' ∉ text.toList) :
    SameOutcome
      (fun rendered other => rendered.roster = other.roster ∧
        SameCode t.language rendered.files other.files)
      (t.render (Catalog.ofSchema schema rootName))
      (t.render (Catalog.ofSchema (schema.mapMetadata Metadata.undescribed) rootName)) := by
  have mirrors := Catalog.mirrors_ofSchema (Schema.regular_of_ofJson read) rootName
  have each : ∀ n ∈ (namedFor t.language schema rootName).names, n.Each IsIdentifier :=
    fun n member => (Naming.each_resolve (Naming.regular_naming t.language).ensures _ n member).imp
      fun _ legal => legal.identifier
  have texts : Texts (hintsOf t.language) (OneLine ·.toList)
      (namedFor t.language schema rootName) :=
    texts_of_mirrors mirrors
      (fun node within key known => hinted node within key (hintsOf_subset _ key known))
      (typeName_of_each List.not_mem_nil fun n member =>
        (each n member).imp fun _ => oneLine_of_isIdentifier)
  have own : ∀ d ∈ (namedFor t.language schema rootName).catalog.declarations,
      HintTexts (ownKeys t.language) (OneLine ·.toList) d.metadata :=
    (mirrors.forall_metadata hinted).1
  have files := sameOutcome_files t (fun _ inside => mirrors.describedBy inside) package each
    texts own
  rw [Catalog.ofSchema_mapMetadata, Target.render, Target.render,
    NamedCatalog.ofCatalog_mapMetadata]
  change SameOutcome _ (t.files (namedFor t.language schema rootName) >>= _)
    (t.files ((namedFor t.language schema rootName).mapMetadata Metadata.undescribed) >>= _)
  generalize t.files (namedFor t.language schema rootName) = here,
    t.files ((namedFor t.language schema rootName).mapMetadata _) = there at files ⊢
  cases files with
  | error failure => exact .error failure
  | ok related => exact .ok ⟨rfl, related⟩

/-- Colors in a set, with a description that looks like the ends and starts of comments. -/
def palette : Json :=
  .object [
    ("metadata", .object [
      ("description", .string "Colors. */\n/**\nThe first is the base. */"),
      ("javaJacksonContainer", .string "java.util.Set")]),
    ("elements", .object [("type", .string "string")])]

def paletteSchema : Schema :=
  ⟨⟨.elements ⟨.type .string, false, .empty⟩, false,
    ⟨some "Colors. */\n/**\nThe first is the base. */", [],
      [("javaJacksonContainer", .string "java.util.Set")]⟩⟩, []⟩

theorem ofJson_palette : Schema.ofJson palette = .ok paletteSchema := by
  have rootRead : Schema.readNode [] true .root palette = .ok paletteSchema.root :=
    (Schema.readNode_eq_ok ..).2 ⟨_, rfl, by rfl, by rfl, by rfl, (Schema.readForm_eq_ok _).2
      (.elements (by decide) (by rfl) (Schema.readNode_primitive [] _ .string))⟩
  exact Schema.ofJson_of_readNode rfl (by rfl) rootRead

theorem contains_palette {node : Node} (within : Schema.Contains paletteSchema node) :
    node = paletteSchema.root ∨ node = ⟨.type .string, false, .empty⟩ := by
  induction within with
  | root => exact .inl rfl
  | definition member => cases member
  | child _ below ih =>
    rcases ih with rfl | rfl
    · cases below with
      | element form => exact .inr (Form.elements.inj form).symm
      | _ form => cases form
    · cases below with
      | _ form => cases form

theorem sameOutcome_palette :
    Schema.ofJson palette = .ok paletteSchema ∧
      ∃ rendered other,
        Target.render ⟨.java, "art"⟩ (Catalog.ofSchema paletteSchema "palette") = .ok rendered ∧
        Target.render ⟨.java, "art"⟩ (Catalog.ofSchema
          (paletteSchema.mapMetadata Metadata.undescribed) "palette") = .ok other ∧
        rendered.files ≠ other.files ∧ SameCode .java rendered.files other.files := by
  have hinted : ∀ node, Schema.Contains paletteSchema node → ∀ key ∈ ownKeys .java, ∀ text,
      node.metadata.hint? key = some (.string text) → '\n' ∉ text.toList := by
    intro node within key known text found
    rcases contains_palette within with rfl | rfl
    · cases List.mem_singleton.1 (Keyed.mem_of_lookup found)
      decide
    · cases found
  have outcome := sameOutcome_undescribed ofJson_palette "palette" ⟨.java, "art"⟩ (by decide) hinted
  let result (schema : Schema) :=
    (Target.render ⟨.java, "art"⟩ (Catalog.ofSchema schema "palette")).toOption
  have changed : (result paletteSchema).bind (fun rendered =>
      (result (paletteSchema.mapMetadata Metadata.undescribed)).map fun other =>
        (rendered.files != other.files)) = some true := by decide +kernel
  obtain ⟨rendered, renders, changed⟩ := Option.bind_eq_some_iff.1 changed
  obtain ⟨other, otherRenders, changed⟩ := Option.map_eq_some_iff.1 changed
  have renders := eq_ok_of_toOption renders
  have otherRenders := eq_ok_of_toOption otherRenders
  rw [renders, otherRenders] at outcome
  cases outcome with
  | ok related =>
    exact ⟨ofJson_palette, rendered, other, renders, otherRenders, bne_iff_ne.1 changed, related.2⟩

end Binding

end SchemaBindings
