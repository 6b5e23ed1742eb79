import SchemaBindings.Binding.Target
import SchemaBindings.Proofs.Catalog.Growth
import SchemaBindings.Proofs.Catalog.MapMetadata

/-! What a language sees of metadata. No name depends on metadata, and a change that keeps the hints
of a language changes nothing in its drafts but descriptions; when these are kept too, it changes
nothing in what is rendered. -/

namespace SchemaBindings

namespace TypeUse

variable (f : Metadata → Metadata) (use : TypeUse)

@[simp] theorem pointer_mapMetadata : (use.mapMetadata f).pointer = use.pointer := by
  cases use
  rw [TypeUse.mapMetadata]
  rfl

@[simp] theorem metadata_mapMetadata : (use.mapMetadata f).metadata = f use.metadata := by
  cases use
  rw [TypeUse.mapMetadata]
  rfl

@[simp] theorem kind_mapMetadata : (use.mapMetadata f).kind = use.kind.mapMetadata f := by
  cases use
  rw [TypeUse.mapMetadata]
  rfl

end TypeUse

@[simp] theorem Catalog.declarations_mapMetadata (f : Metadata → Metadata) (catalog : Catalog) :
    (catalog.mapMetadata f).declarations = catalog.declarations.map (Declaration.mapMetadata f) :=
  rfl

@[simp] theorem Catalog.declaration?_mapMetadata (f : Metadata → Metadata) (catalog : Catalog)
    (id : Nat) : (catalog.mapMetadata f).declaration? id =
      (catalog.declaration? id).map (Declaration.mapMetadata f) := by
  simp [Catalog.declaration?]

theorem Catalog.shape?_mapMetadata (f : Metadata → Metadata) (catalog : Catalog) (id : Nat) :
    (catalog.mapMetadata f).shape? id =
      (catalog.declaration? id).map (fun d => d.shape.mapMetadata f d.metadata) := by
  rw [Catalog.shape?, Catalog.declaration?_mapMetadata, Option.map_map]
  rfl

/-- The values of an enumeration are described by its own metadata. -/
def Shape.DescribedBy (own : Metadata) : Shape → Prop
  | .enumeration values => ∀ v ∈ values, v.described = own.enumDescribed v.value
  | _ => True

theorem Catalog.Mirrors.describedBy {schema : Schema} {rootName : String} {catalog : Catalog}
    (mirrors : Mirrors schema rootName catalog) {d : Declaration}
    (inside : d ∈ catalog.declarations) : d.shape.DescribedBy d.metadata := by
  obtain ⟨id, found⟩ := List.mem_iff_getElem?.1 inside
  obtain ⟨place, -, describes⟩ := mirrors.place_at found
  have shaped := describes.shape
  rw [describes.metadata]
  cases shape : d.shape with
  | enumeration values =>
    rw [shape] at shaped
    cases shaped with
    | own _ shaped =>
      cases shaped with
      | enumeration form =>
        intro v member
        obtain ⟨value, -, rfl⟩ := List.mem_map.1 member
        rfl
  | _ => trivial

namespace Naming

section Names

variable (f : Metadata → Metadata) (convention : Convention) (catalog : Catalog)

theorem tag?_mapMetadata (id : Nat) : tag? (catalog.mapMetadata f) id = tag? catalog id := by
  rw [tag?, Catalog.shape?_mapMetadata, tag?, Catalog.shape?]
  cases catalog.declaration? id with
  | none => rfl
  | some d =>
    simp only [Option.map_some]
    cases d.shape <;> rfl

theorem tagValue?_mapMetadata (id : Nat) :
    tagValue? (catalog.mapMetadata f) id = tagValue? catalog id := by
  rw [tagValue?, Catalog.shape?_mapMetadata, tagValue?, Catalog.shape?]
  cases catalog.declaration? id with
  | none => rfl
  | some d =>
    simp only [Option.map_some]
    cases d.shape <;> rfl

theorem memberNames_mapMetadata (scope : Scope) (members : List Member) :
    memberNames convention scope (members.map (Member.mapMetadata f)) =
      memberNames convention scope members := by
  rw [memberNames, List.map_map, memberNames]
  rfl

theorem namesOf_mapMetadata (types : Scope) (type : String) (own : Metadata) (shape : Shape) :
    namesOf convention (catalog.mapMetadata f) types type (shape.mapMetadata f own) =
      namesOf convention catalog types type shape := by
  cases shape with
  | record members additional =>
    simp only [Shape.mapMetadata, namesOf, memberNames_mapMetadata]
  | enumeration values =>
    simp only [Shape.mapMetadata, namesOf, List.map_map]
    rfl
  | union tag variants =>
    simp only [Shape.mapMetadata, namesOf, funext (tagValue?_mapMetadata f catalog)]
  | variant parent tagValue members additional =>
    simp only [Shape.mapMetadata, namesOf, tag?_mapMetadata, memberNames_mapMetadata]
  | wrapper inner => rfl

theorem namesFrom_mapMetadata (types : Scope) (entries : List (Declaration × String)) :
    namesFrom convention (catalog.mapMetadata f) types
        (entries.map fun entry => (entry.1.mapMetadata f, entry.2)) =
      namesFrom convention catalog types entries := by
  induction entries generalizing types with
  | nil => rfl
  | cons entry rest ih =>
    simp only [List.map_cons, namesFrom, Declaration.mapMetadata, namesOf_mapMetadata]
    exact congrArg _ (ih _)

/-- No name depends on metadata. -/
theorem resolve_mapMetadata :
    resolve convention (catalog.mapMetadata f) = resolve convention catalog := by
  have types : typeNames convention (catalog.mapMetadata f) = typeNames convention catalog := by
    simp only [typeNames, Catalog.declarations_mapMetadata, List.map_map]
    rfl
  simp only [resolve, types, Catalog.declarations_mapMetadata, List.zip_map_left]
  exact namesFrom_mapMetadata f convention catalog _ _

end Names

end Naming

namespace Binding

/-- The text of a hint. A hint that is no text has none. -/
def hintText? : Json → Option String
  | .string text => some text
  | _ => none

/-- The keys of the hints that any node may carry. -/
def HintKeys.all (keys : HintKeys) : List String := keys.type :: keys.container.toList

/-- All metadata keys that a language reads. -/
def ownKeys : Language → List String
  | .java => JavaClasses.hints.all
  | .rust => RustModule.deriveKey :: RustModule.hints.all
  | .go => GoPackage.discriminatorKey :: GoPackage.hints.all
  | .typescript => TypeScriptModule.hints.all

/-- A change of metadata that changes every description in one way, and keeps of the owned keys
which ones there are and what they say. -/
structure Keeps (owned : List String) (g : Option String → Option String)
    (f : Metadata → Metadata) : Prop where
  described : ∀ m : Metadata, (f m).described = g m.described
  enumDescribed : ∀ (m : Metadata) (value : String),
    (f m).enumDescribed value = g (m.enumDescribed value)
  hint : ∀ m : Metadata, ∀ key ∈ owned,
    ((f m).hint? key).map hintText? = (m.hint? key).map hintText?

theorem HintKeys.string?_eq (keys : HintKeys) (key : String) (metadata : Metadata)
    (here : Pointer) :
    keys.string? key metadata here =
      match (metadata.hint? key).map hintText? with
      | none => .ok none
      | some (some text) => .ok (some text)
      | some none => keys.reject here key (.hintNotString key) := by
  rw [string?]
  cases metadata.hint? key with
  | none => rfl
  | some value => cases value <;> rfl

namespace NamedCatalog

/-- The names stay, as no name depends on metadata. -/
def mapMetadata (f : Metadata → Metadata) (c : NamedCatalog) : NamedCatalog :=
  ⟨c.catalog.mapMetadata f, c.names⟩

@[simp] theorem catalog_mapMetadata (f : Metadata → Metadata) (c : NamedCatalog) :
    (c.mapMetadata f).catalog = c.catalog.mapMetadata f := rfl

@[simp] theorem names_mapMetadata (f : Metadata → Metadata) (c : NamedCatalog) :
    (c.mapMetadata f).names = c.names := rfl

theorem ofCatalog_mapMetadata (f : Metadata → Metadata) (convention : Naming.Convention)
    (catalog : Catalog) : ofCatalog convention (catalog.mapMetadata f) =
      (ofCatalog convention catalog).mapMetadata f := by
  rw [ofCatalog, Naming.resolve_mapMetadata]
  rfl

end NamedCatalog

section Hints

variable {f : Metadata → Metadata} {g : Option String → Option String}

theorem string?_of_keeps {owned : List String} (kept : Keeps owned g f) {key : String}
    (known : key ∈ owned) (keys : HintKeys) (metadata : Metadata) (here : Pointer) :
    keys.string? key (f metadata) here = keys.string? key metadata here := by
  rw [HintKeys.string?_eq, kept.hint metadata key known, HintKeys.string?_eq]

variable {keys : HintKeys} (kept : Keeps keys.all g f) (c : NamedCatalog)

include kept

theorem type?_of_keeps (metadata : Metadata) (here : Pointer) :
    keys.type? (f metadata) here = keys.type? metadata here :=
  string?_of_keeps kept List.mem_cons_self keys metadata here

theorem container?_of_keeps (hasItems : Bool) (metadata : Metadata) (here : Pointer) :
    keys.container? hasItems (f metadata) here = keys.container? hasItems metadata here := by
  rw [HintKeys.container?, HintKeys.container?]
  match container : keys.container with
  | none => rfl
  | some key =>
    have known : key ∈ keys.all := by simp [HintKeys.all, container]
    simp only [string?_of_keeps kept known]

theorem reference_mapMetadata (id : Nat) :
    (c.mapMetadata f).reference keys id = c.reference keys id := by
  rw [NamedCatalog.reference, NamedCatalog.mapMetadata, Catalog.declaration?_mapMetadata,
    NamedCatalog.reference]
  cases c.catalog.declaration? id with
  | none => rfl
  | some d =>
    simp only [Option.map_some, Declaration.mapMetadata, type?_of_keeps kept]
    rfl

/-- Read with its hints, a type is the same at every depth. -/
theorem ofUse_mapMetadata (use : TypeUse) :
    TypeExpr.ofUse keys (c.mapMetadata f) (use.mapMetadata f) = TypeExpr.ofUse keys c use := by
  obtain ⟨kind, nullable, metadata, here⟩ := use
  rw [TypeUse.mapMetadata, TypeExpr.ofUse.eq_def, TypeExpr.ofUse.eq_def keys c]
  cases kind with
  | elements item =>
    simp only [TypeKind.mapMetadata, type?_of_keeps kept, container?_of_keeps kept,
      ofUse_mapMetadata item]
  | values item =>
    simp only [TypeKind.mapMetadata, type?_of_keeps kept, container?_of_keeps kept,
      ofUse_mapMetadata item]
  | _ =>
    simp only [TypeKind.mapMetadata, type?_of_keeps kept, container?_of_keeps kept,
      reference_mapMetadata kept]
termination_by sizeOf use

theorem markReplaced_mapMetadata (marks : List Bool) (declarations : List Declaration) :
    markReplaced keys.type marks (declarations.map (Declaration.mapMetadata f)) =
      markReplaced keys.type marks declarations := by
  induction declarations generalizing marks with
  | nil => rfl
  | cons d rest ih =>
    have same : ((f d.metadata).hint? keys.type).isSome = (d.metadata.hint? keys.type).isSome := by
      rw [← Option.isSome_map, kept.hint _ _ List.mem_cons_self, Option.isSome_map]
    simp only [List.map_cons, markReplaced, Declaration.mapMetadata, same, ih]

end Hints

/-- What the rules of a language take from metadata is kept. -/
structure Rules.Keeps {ε μ : Type} (rules : Rules ε μ) (g : Option String → Option String)
    (f : Metadata → Metadata) : Prop where
  hints : Binding.Keeps rules.keys.all g f
  declaration : ∀ (c : NamedCatalog) (d : Declaration) (names : Naming.Names),
    rules.declaration (c.mapMetadata f) (d.mapMetadata f) names = rules.declaration c d names
  member : ∀ m : Member, rules.member (m.mapMetadata f) = rules.member m
  variant : ∀ (d : Declaration) (reference : Reference),
    rules.variant (d.mapMetadata f) reference = rules.variant d reference

section Redescribing

variable {ε μ : Type} (g : Option String → Option String)

def Field.redescribe (f : Field μ) : Field μ := { f with described := g f.described }

def Choice.redescribe (c : Choice) : Choice := { c with described := g c.described }

def Body.redescribe : Body μ → Body μ
  | .record fields additional => .record (fields.map (Field.redescribe g)) additional
  | .enumeration choices => .enumeration (choices.map (Choice.redescribe g))
  | .union tag cases => .union tag cases
  | .variant base tagValue fields additional =>
    .variant base tagValue (fields.map (Field.redescribe g)) additional
  | .wrapper inner => .wrapper inner

/-- A draft with every description changed, that of the declaration and those inside it. -/
def Draft.redescribe (d : Draft ε μ) : Draft ε μ :=
  { d with described := g d.described, body := d.body.redescribe g }

theorem redescribe_id : (Draft.redescribe id : Draft ε μ → Draft ε μ) = id := by
  have fields : (Field.redescribe id : Field μ → Field μ) = id := rfl
  have choices : Choice.redescribe id = id := rfl
  funext d
  obtain ⟨number, name, described, body, extra⟩ := d
  cases body <;> simp [Draft.redescribe, Body.redescribe, fields, choices]

end Redescribing

section Drafting

variable {ε μ : Type} {rules : Rules ε μ} {f : Metadata → Metadata}
  {g : Option String → Option String} (kept : rules.Keeps g f) (c : NamedCatalog)

include kept

theorem fields_mapMetadata (members : List (Member × String)) :
    rules.fields (c.mapMetadata f) (members.map fun entry => (entry.1.mapMetadata f, entry.2)) =
      List.map (Field.redescribe g) <$> rules.fields c members := by
  induction members with
  | nil => rfl
  | cons entry rest ih =>
    obtain ⟨m, name⟩ := entry
    have described : (m.mapMetadata f).described = g m.described := by
      simp only [Member.described, Member.mapMetadata, TypeUse.metadata_mapMetadata,
        kept.hints.described]
    simp only [List.map_cons, Rules.fields, kept.member, described, ih]
    simp only [Member.mapMetadata, ofUse_mapMetadata kept.hints]
    cases TypeExpr.ofUse rules.keys c m.type with
    | error fault => rfl
    | ok type =>
      cases rules.member m with
      | error fault => rfl
      | ok extra => cases rules.fields c rest <;> rfl

theorem cases_mapMetadata (entries : List (Nat × String × String)) :
    rules.cases (c.mapMetadata f) entries = rules.cases c entries := by
  induction entries with
  | nil => rfl
  | cons entry rest ih =>
    obtain ⟨id, member, constant⟩ := entry
    simp only [Rules.cases, ih, NamedCatalog.catalog_mapMetadata, Catalog.declaration?_mapMetadata,
      reference_mapMetadata kept.hints]
    cases c.catalog.declaration? id with
    | none => rfl
    | some d =>
      simp only [Option.map_some, kept.variant]
      simp only [Declaration.mapMetadata]
      cases d.shape <;> rfl

theorem body_mapMetadata (names : Naming.Names) {own : Metadata} {shape : Shape}
    (told : shape.DescribedBy own) :
    rules.body (c.mapMetadata f) names (shape.mapMetadata f own) =
      Body.redescribe g <$> rules.body c names shape := by
  cases shape with
  | record members additional =>
    simp only [Shape.mapMetadata, Rules.body, List.zip_map_left]
    have fields := fields_mapMetadata kept c (members.zip names.members)
    refine (congrArg (· >>= _) fields).trans ?_
    cases rules.fields c (members.zip names.members) <;> rfl
  | enumeration values =>
    -- The changed shape takes the texts of its values from the metadata anew, and there they are.
    have same : values.map (fun v => EnumValue.mk v.value ((f own).enumDescribed v.value)) =
        values.map (fun v => EnumValue.mk v.value (g v.described)) := by
      refine List.map_congr_left fun v member => ?_
      rw [kept.hints.enumDescribed, told v member]
    simp only [Shape.mapMetadata, same, Rules.body, List.zip_map_left, List.map_map]
    refine congrArg (Except.ok ∘ Body.enumeration) ?_
    rw [List.map_map]
    rfl
  | union tag variants =>
    simp only [Shape.mapMetadata, Rules.body, cases_mapMetadata kept]
    cases rules.cases c (variants.zip (names.members.zip names.constants)) <;> rfl
  | variant parent tagValue members additional =>
    simp only [Shape.mapMetadata, Rules.body, List.zip_map_left,
      reference_mapMetadata kept.hints]
    have fields := fields_mapMetadata kept c (members.zip names.members)
    refine (congrArg (_ >>= ·) (funext fun _ => congrArg (· >>= _) fields)).trans ?_
    cases c.reference rules.keys parent with
    | error fault => rfl
    | ok base => cases rules.fields c (members.zip names.members) <;> rfl
  | wrapper inner =>
    simp only [Shape.mapMetadata, Rules.body, ofUse_mapMetadata kept.hints]
    cases TypeExpr.ofUse rules.keys c inner <;> rfl

theorem draft_mapMetadata {d : Declaration} (told : d.shape.DescribedBy d.metadata)
    (names : Naming.Names) :
    rules.draft (c.mapMetadata f) (d.mapMetadata f) names =
      Draft.redescribe g <$> rules.draft c d names := by
  rw [Rules.draft, kept.declaration, Rules.draft]
  simp only [Declaration.mapMetadata, body_mapMetadata kept c names told, kept.hints.described]
  cases rules.declaration c d names with
  | error fault => rfl
  | ok extra => cases rules.body c names d.shape <;> rfl

theorem draftAll_mapMetadata {entries : List (Declaration × Naming.Names)}
    (told : ∀ entry ∈ entries, entry.1.shape.DescribedBy entry.1.metadata) :
    rules.draftAll (c.mapMetadata f) (entries.map fun entry => (entry.1.mapMetadata f, entry.2)) =
      List.map (Draft.redescribe g) <$> rules.draftAll c entries := by
  induction entries with
  | nil => rfl
  | cons entry rest ih =>
    obtain ⟨first, later⟩ := List.forall_mem_cons.1 told
    simp only [List.map_cons, Rules.draftAll, draft_mapMetadata kept c first, ih later]
    cases rules.draft c entry.1 entry.2 with
    | error fault => rfl
    | ok draft => cases rules.draftAll c rest <;> rfl

theorem replaced_mapMetadata :
    replaced rules.keys.type (c.catalog.mapMetadata f) = replaced rules.keys.type c.catalog :=
  markReplaced_mapMetadata kept.hints [] c.catalog.declarations

theorem written_mapMetadata :
    rules.written (c.mapMetadata f) =
      (rules.written c).map fun entry => (entry.1.mapMetadata f, entry.2) := by
  simp only [Rules.written, NamedCatalog.catalog_mapMetadata, NamedCatalog.names_mapMetadata,
    replaced_mapMetadata kept]
  simp only [Catalog.declarations_mapMetadata, List.zip_map_left, List.filter_map, List.map_map]
  rfl

/-- The drafts of a language change in their descriptions alone when what it reads of metadata is
kept. -/
theorem drafts_mapMetadata
    (told : ∀ d ∈ c.catalog.declarations, d.shape.DescribedBy d.metadata) :
    rules.drafts (c.mapMetadata f) = List.map (Draft.redescribe g) <$> rules.drafts c := by
  rw [Rules.drafts, written_mapMetadata kept, draftAll_mapMetadata kept, Rules.drafts]
  intro entry inside
  obtain ⟨marked, member, rfl⟩ := List.mem_map.1 inside
  exact told _ (List.of_mem_zip (List.of_mem_zip (List.mem_filter.1 member).1).1).1

end Drafting

section Languages

variable {f : Metadata → Metadata} {g : Option String → Option String}

theorem Keeps.mono {owned fewer : List String} (kept : Keeps owned g f)
    (part : ∀ key ∈ fewer, key ∈ owned) : Keeps fewer g f :=
  ⟨kept.described, kept.enumDescribed, fun m key known => kept.hint m key (part key known)⟩

theorem keeps_java (kept : Keeps (ownKeys .java) g f) : JavaClasses.rules.Keeps g f where
  hints := kept
  declaration _ _ _ := rfl
  member _ := rfl
  variant _ _ := rfl

theorem keeps_rust (kept : Keeps (ownKeys .rust) g f) : RustModule.rules.Keeps g f where
  hints := kept.mono fun _ known => List.mem_cons_of_mem _ known
  declaration c d names := by
    have known : RustModule.deriveKey ∈ ownKeys .rust := List.mem_cons_self
    simp only [RustModule.rules, RustModule.derives, Declaration.mapMetadata,
      string?_of_keeps kept known]
  member _ := rfl
  variant _ _ := rfl

theorem keeps_go (kept : Keeps (ownKeys .go) g f) : GoPackage.rules.Keeps g f where
  hints := kept.mono fun _ known => List.mem_cons_of_mem _ known
  declaration c d names := by
    have known : GoPackage.discriminatorKey ∈ ownKeys .go := List.mem_cons_self
    simp only [GoPackage.rules, GoPackage.tagField, Declaration.mapMetadata,
      string?_of_keeps kept known]
    cases d.shape <;> rfl
  member m := by simp only [GoPackage.rules, Member.mapMetadata, TypeUse.pointer_mapMetadata]
  variant _ _ := rfl

theorem keeps_typescript (kept : Keeps (ownKeys .typescript) g f) :
    TypeScriptModule.rules.Keeps g f where
  hints := kept
  declaration c d names := by
    simp only [TypeScriptModule.rules, TypeScriptModule.variantTag, Declaration.mapMetadata,
      NamedCatalog.catalog_mapMetadata, Naming.tag?_mapMetadata]
    cases d.shape <;> rfl
  member _ := rfl
  variant _ _ := rfl

theorem direct?_mapMetadata (f : Metadata → Metadata) (use : TypeUse) :
    direct? (use.mapMetadata f) = direct? use := by
  rw [direct?, TypeUse.kind_mapMetadata, direct?]
  cases use.kind <;> rfl

theorem held_mapMetadata (f : Metadata → Metadata) (own : Metadata) (shape : Shape) :
    held (shape.mapMetadata f own) = held shape := by
  cases shape with
  | record members additional =>
    simp only [Shape.mapMetadata, held, List.filterMap_map]
    exact List.filterMap_congr fun m _ => direct?_mapMetadata f m.type
  | variant parent tagValue members additional =>
    simp only [Shape.mapMetadata, held, List.filterMap_map]
    exact List.filterMap_congr fun m _ => direct?_mapMetadata f m.type
  | wrapper inner => simp only [Shape.mapMetadata, held, direct?_mapMetadata]
  | _ => rfl

/-- What holds what by value does not depend on metadata. -/
theorem holdings_mapMetadata (f : Metadata → Metadata) (catalog : Catalog) :
    holdings (catalog.mapMetadata f) = holdings catalog := by
  rw [holdings, Catalog.declarations_mapMetadata, List.map_map, holdings]
  exact List.map_congr_left fun d _ => held_mapMetadata f d.metadata d.shape

/-- The output for a target is the same when what its language reads of metadata is kept. -/
theorem Target.render_mapMetadata {t : Target} (kept : Keeps (ownKeys t.language) id f)
    {catalog : Catalog} (told : ∀ d ∈ catalog.declarations, d.shape.DescribedBy d.metadata) :
    t.render (catalog.mapMetadata f) = t.render catalog := by
  have drafts {ε μ : Type} {rules : Rules ε μ} (kept : rules.Keeps id f) (c : NamedCatalog)
      (told : ∀ d ∈ c.catalog.declarations, d.shape.DescribedBy d.metadata) :
      rules.drafts (c.mapMetadata f) = rules.drafts c := by
    rw [drafts_mapMetadata kept c told, redescribe_id, List.map_id_fun, id_map]
  have files (c : NamedCatalog) (told : ∀ d ∈ c.catalog.declarations,
      d.shape.DescribedBy d.metadata) : t.files (c.mapMetadata f) = t.files c := by
    obtain ⟨language, package⟩ := t
    cases language with
    | java => simp only [Target.files, JavaClasses.files, drafts (keeps_java kept) c told]
    | rust =>
      simp only [Target.files, RustModule.files, RustModule.items,
        NamedCatalog.catalog_mapMetadata, holdings_mapMetadata, drafts (keeps_rust kept) c told]
    | go =>
      simp only [Target.files, GoPackage.files, NamedCatalog.catalog_mapMetadata,
        holdings_mapMetadata, drafts (keeps_go kept) c told]
    | typescript =>
      simp only [Target.files, TypeScriptModule.files, drafts (keeps_typescript kept) c told]
  simp only [Target.render, NamedCatalog.ofCatalog_mapMetadata]
  rw [files _ told]
  rfl

end Languages

end Binding

end SchemaBindings
