import SchemaBindings.Proofs.Binding.Telling

/-! What is read back from a piece of the output is what the node has that the piece stands for. -/

namespace SchemaBindings.Binding

open Catalog (Describes Linked Located MemberFor Mirrors Place declaredPlaces merge)
open Keyed (keys Increasing)
open Naming (Names)
open Schema (Regular)

def Piece.entries (language : Language) (piece : Piece) : List Entry :=
  readBack language (Text.unlines piece.lines)

/-- What a variant has ahead of its own members: in TypeScript the tag of its union, with the one
value that it has there. -/
inductive Lead (language : Language) (schema : Schema) (rootName : String) :
    Place → List Slot → Prop
  | none {place : Place}
      (own : language = .typescript → ∀ tagValue, place.step ≠ some (.variant tagValue)) :
      Lead language schema rootName place []
  | tag {parent : Place} {tag tagValue : String} {mapping : List (String × Node)} {node : Node}
      (typescript : language = .typescript) (located : Located schema rootName parent)
      (form : parent.node.form = .discriminator tag mapping)
      (member : (tagValue, node) ∈ mapping) :
      Lead language schema rootName (parent.down (.variant tagValue) node)
        [⟨tag, true, some tagValue⟩]

/-- The members of a properties form by name, each with its flag. -/
structure AreMembers (required optional : List (String × Node)) (own : List Slot) : Prop where
  sorted : own.Pairwise (·.wireName < ·.wireName)
  mem_iff : ∀ slot, slot ∈ own ↔
    slot.value = none ∧ slot.wireName ∈ keys (if slot.required then required else optional)

/-- How a variant that a union tells stands for an entry of the mapping at a place: by the type that
is written for the entry. In TypeScript the tag value is told by the first member of that type. -/
structure VariantFor (language : Language) (written : List (Place × Piece)) (place : Place)
    (tag : String) (entry : String × Node) (variant : String × String) : Prop where
  tagValue : variant.1 = entry.1
  type : ∃ piece, (place.down (.variant entry.1) entry.2, piece) ∈ written ∧
    variant.2 = piece.name ∧ (language = .typescript →
      ((piece.entries language).filterMap Entry.slot?).head? = some ⟨tag, true, some entry.1⟩)

/-- What is read back from a piece is what the node has that it stands for. -/
structure Recalls (language : Language) (schema : Schema) (rootName : String)
    (written : List (Place × Piece)) (place : Place) (piece : Piece) : Prop where
  name : (piece.entries language).filterMap Entry.name? = [piece.name]
  properties : ∀ required optional additional,
    place.node.form = .properties required optional additional →
    ∃ lead own, Lead language schema rootName place lead ∧ AreMembers required optional own ∧
      (piece.entries language).filterMap Entry.slot? = lead ++ own ∧
      ((lead ++ own).map Slot.wireName).Nodup
  enum : ∀ values, place.node.form = .enum values →
    ∃ constants : List String, constants.Nodup ∧ constants.length = values.length ∧
      (piece.entries language).filterMap Entry.choice? = values.zip constants
  union : ∀ tag mapping, place.node.form = .discriminator tag mapping →
    mapping ≠ [] ∧ Increasing mapping ∧ ∃ variants,
      TellsUnion language tag variants (piece.entries language) ∧
      List.Forall₂ (VariantFor language written place tag) mapping variants

theorem areMembers_merge {required optional : List (String × Node)}
    (requiredIncreasing : Increasing required) (optionalIncreasing : Increasing optional)
    (disjoint : ∀ name ∈ keys required, name ∉ keys optional) :
    AreMembers required optional
      ((merge required optional).map fun p => ⟨p.name, p.required, none⟩) where
  sorted := List.pairwise_map.2
    (Catalog.increasing_merge requiredIncreasing optionalIncreasing disjoint)
  mem_iff slot := by
    obtain ⟨name, flag, value⟩ := slot
    rw [List.mem_map, Keyed.mem_keys]
    constructor
    · rintro ⟨p, member, same⟩
      cases same
      exact ⟨rfl, p.node, Catalog.mem_merge.1 member⟩
    · rintro ⟨rfl, node, member⟩
      exact ⟨⟨name, flag, node⟩, Catalog.mem_merge.2 member, rfl⟩

/-- What belongs to one number: a place, its declaration with its names, and the draft. -/
structure DraftAt {ε μ : Type} (rules : Rules ε μ) (c : NamedCatalog) (schema : Schema)
    (rootName : String) (drafts : List (Draft ε μ)) (id : Nat) (place : Place)
    (declaration : Declaration) (names : Names) (d : Draft ε μ) : Prop where
  found : (declaredPlaces schema rootName)[id]? = some place
  declared : c.catalog.declaration? id = some declaration
  describes : Describes schema (declaredPlaces schema rootName) place declaration
  named : c.names[id]? = some names
  listed : drafts[id]? = some d
  drafted : rules.draft c declaration names = .ok d

section Leads

variable {schema : Schema} {rootName : String} {catalog : Catalog}
  (mirrors : Mirrors schema rootName catalog) (linked : Linked catalog)

include mirrors linked

theorem lead_of_shape (language : Language) {id : Nat} {place : Place} {declaration : Declaration}
    (found : (declaredPlaces schema rootName)[id]? = some place)
    (declared : catalog.declaration? id = some declaration)
    (describes : Describes schema (declaredPlaces schema rootName) place declaration) :
    Lead language schema rootName place (leadOf language catalog declaration.shape) := by
  obtain rfl := linked.ids id declaration declared
  have shaped := describes.shape
  cases shape : declaration.shape with
  | variant parent tagValue members additional =>
    rw [leadOf]
    split
    · rename_i typescript
      obtain ⟨u, member, rfl, -, tag, variants, union, listed⟩ :=
        mirrors.union_of_variant linked (List.mem_of_getElem? declared) ⟨_, _, _, shape⟩
      obtain ⟨outer, numbered, above⟩ := mirrors.place_of_mem linked member
      have unionShaped := above.shape
      rw [union] at unionShaped
      cases unionShaped with
      | own _ unionShaped =>
        cases unionShaped with
        | union form each =>
          obtain ⟨i, known⟩ := List.mem_iff_getElem?.1 listed
          obtain ⟨entry, inside, -, below⟩ := Catalog.getElem?_of_forall₂ each.flip known
          obtain rfl := Option.some.inj (found.symm.trans below)
          obtain ⟨parent, members, additional, same⟩ := shaped.variant_of_step rfl
          cases shape.symm.trans same
          have tagged : Naming.tag? catalog u.id = some tag := by
            rw [Naming.tag?, Catalog.shape?, linked.declaration?_id member, Option.map_some, union]
          rw [tagged]
          exact .tag typescript (Catalog.located_of_getElem? numbered) form
            (List.mem_of_getElem? inside)
    · rename_i other
      exact .none fun typescript => (other typescript).elim
  | _ =>
    refine .none fun _ tagValue step => ?_
    obtain ⟨_, _, _, same⟩ := shaped.variant_of_step step
    cases shape.symm.trans same

end Leads

section Recalling

variable {ε μ : Type} {rules : Rules ε μ} {language : Language} {convention : Naming.Convention}
  {document : Json} {schema : Schema} {rootName : String} {catalog : Catalog}
  (mirrors : Mirrors schema rootName catalog) (linked : Linked catalog)
  {drafts : List (Draft ε μ)} {id : Nat} {place : Place} {declaration : Declaration}
  {names : Names} {d : Draft ε μ}

/-- The member in JSON that a member of the catalog stands for. -/
def slotOf (m : Member) : Slot := ⟨m.wireName, m.required, none⟩

theorem slots_of_fields {all : List Place} {required optional : List (String × Node)}
    {members : List Member} {own : List String} {fields : List (Field μ)} {c : NamedCatalog}
    (each : List.Forall₂ (MemberFor schema all id place) (merge required optional) members)
    (count : own.length = members.length)
    (read : rules.fields c (members.zip own) = .ok fields) :
    fields.map Field.slot =
      (merge required optional).map fun p => ⟨p.name, p.required, none⟩ := by
  calc fields.map Field.slot
      = (members.zip own).map (slotOf ∘ Prod.fst) :=
        Catalog.map_eq_of_forall₂ ((forall₂_fields read).imp fun entry f known => by
          rw [Field.slot, known.wireName, known.required]
          rfl)
    _ = members.map slotOf := by
        rw [← List.map_map, List.map_fst_zip (Nat.le_of_eq count.symm)]
    _ = (merge required optional).map fun p => ⟨p.name, p.required, none⟩ :=
        Catalog.map_eq_of_forall₂ (each.imp fun p m known => by
          rw [slotOf, known.name, known.required])

/-- What stands for each declared place, when no hint stands anywhere. -/
theorem exists_draftAt (mirrors : Mirrors schema rootName catalog) (linked : Linked catalog)
    (unhinted : Unhinted catalog)
    (read : rules.drafts (.ofCatalog convention catalog) = .ok drafts)
    (found : (declaredPlaces schema rootName)[id]? = some place) :
    ∃ declaration names d, DraftAt rules (.ofCatalog convention catalog) schema rootName drafts id
      place declaration names d := by
  obtain ⟨declaration, declared, describes⟩ := mirrors.declaration_at found
  have bound := Catalog.lt_size_of_declaration? declared
  rw [← Naming.length_resolve convention] at bound
  have named := List.getElem?_eq_getElem bound
  have listed : (rules.written (.ofCatalog convention catalog))[id]? =
      some (declaration, (Naming.resolve convention catalog)[id]) := by
    rw [Unhinted.written unhinted mirrors linked]
    exact List.getElem?_zip_eq_some.2 ⟨declared, named⟩
  obtain ⟨d, there, drafted⟩ := Catalog.getElem?_of_forall₂ (forall₂_of_drafts read) listed
  exact ⟨declaration, _, d, found, declared, describes, named, there, drafted⟩

namespace DraftAt

variable (draftAt : DraftAt rules (.ofCatalog convention catalog) schema rootName drafts id place
  declaration names d)

include draftAt

theorem within : Schema.Contains schema place.node :=
  (Catalog.located_of_getElem? draftAt.found).contains

theorem bodyOf : BodyOf rules (.ofCatalog convention catalog) names declaration.shape d.body :=
  bodyOf_of_body (draft_eq_ok draftAt.drafted).2.2

theorem distinct (linked : Linked catalog) :
    Naming.DistinctIn
      (fun other => (Naming.resolve convention catalog)[other]?.bind Names.tagMember)
      declaration.shape names := by
  have declared : catalog.declaration? id = some declaration := draftAt.declared
  exact Naming.distinctIn_resolve convention catalog linked
    (by rw [Catalog.shape?, declared, Option.map_some]) draftAt.named

theorem fits (linked : Linked catalog) : Catalog.Fits names declaration.shape :=
  Catalog.fits_resolve linked convention draftAt.declared draftAt.named

theorem slots (linked : Linked catalog) {entries : List Entry}
    (told : d.ToldBy language (leadOf language catalog declaration.shape) entries)
    {required optional : List (String × Node)} {additional : Bool}
    (form : place.node.form = .properties required optional additional) :
    entries.filterMap Entry.slot? = leadOf language catalog declaration.shape ++
      (merge required optional).map fun p => ⟨p.name, p.required, none⟩ := by
  have bodyOf := draftAt.bodyOf
  have fits := draftAt.fits linked
  obtain ⟨members, each, shape | ⟨parent, tagValue, shape⟩⟩ :=
    draftAt.describes.shape.of_properties form
  · rw [shape] at bodyOf fits
    generalize same : d.body = body at bodyOf
    cases bodyOf with
    | record read =>
      rw [told.record _ _ same, slots_of_fields each fits read, shape]
      rfl
  · rw [shape] at bodyOf fits
    generalize same : d.body = body at bodyOf
    cases bodyOf with
    | variant known read => rw [told.variant _ _ _ _ same, slots_of_fields each fits read]

/-- A variant does not have the tag of its union among its own members. -/
theorem nodup_slots (read : Schema.ofJson document = .ok schema) {lead own : List Slot}
    (leads : Lead language schema rootName place lead) {required optional : List (String × Node)}
    {additional : Bool} (form : place.node.form = .properties required optional additional)
    (members : AreMembers required optional own) :
    ((lead ++ own).map Slot.wireName).Nodup := by
  have distinct : (own.map Slot.wireName).Nodup :=
    (List.pairwise_map.2 members.sorted).imp String.ne_of_lt
  cases leads with
  | none => exact distinct
  | @tag parent tag tagValue mapping node _ located unionForm member =>
    refine List.nodup_cons.2 ⟨fun again => ?_, distinct⟩
    obtain ⟨slot, inside, same⟩ := List.mem_map.1 again
    obtain ⟨_, _, _, nodeRead⟩ := Schema.readNode_of_contains read located.contains
    obtain ⟨-, required', optional', additional', form', absent⟩ :=
      (Schema.variants_of_readNode nodeRead unionForm).2 _ member
    cases form.symm.trans form'
    have known := ((members.mem_iff slot).1 inside).2
    rw [same] at known
    split at known
    · exact absent.1 known
    · exact absent.2 known

theorem choices (linked : Linked catalog) {lead : List Slot} {entries : List Entry}
    (told : d.ToldBy language lead entries) {values : List String}
    (form : place.node.form = .enum values) :
    ∃ constants : List String, constants.Nodup ∧ constants.length = values.length ∧
      entries.filterMap Entry.choice? = values.zip constants := by
  have shape := draftAt.describes.shape.of_enum form
  have bodyOf := draftAt.bodyOf
  obtain ⟨count, distinct⟩ := (draftAt.distinct linked).enumeration _ shape
  rw [List.length_map] at count
  refine ⟨names.constants, distinct, count, ?_⟩
  rw [shape] at bodyOf
  generalize same : d.body = body at bodyOf
  cases bodyOf with
  | enumeration =>
    rw [told.enumeration _ same, List.map_map, List.zip_map_left, List.map_map]
    exact List.map_id _

/-- In TypeScript a variant tells the tag of its union first, with its own tag value. -/
theorem head?_slots (linked : Linked catalog) (regular : Regular schema)
    (mirrors : Mirrors schema rootName catalog) {entries : List Entry}
    (told : d.ToldBy .typescript (leadOf .typescript catalog declaration.shape) entries)
    {outer : Place} (located : Located schema rootName outer) {tag : String}
    {mapping : List (String × Node)} (form : outer.node.form = .discriminator tag mapping)
    {entry : String × Node} (member : entry ∈ mapping)
    (below : place = outer.down (.variant entry.1) entry.2) :
    (entries.filterMap Entry.slot?).head? = some ⟨tag, true, some entry.1⟩ := by
  obtain ⟨-, required, optional, additional, properties⟩ :=
    ((regular.nodes _ located.contains).mapping _ _ form).2 entry member
  have own : place.node.form = .properties required optional additional := by
    rw [below]
    exact properties
  have lead := lead_of_shape mirrors linked .typescript draftAt.found draftAt.declared
    draftAt.describes
  rw [draftAt.slots linked told own]
  generalize leadOf .typescript catalog declaration.shape = slots at lead
  cases lead with
  | none plain => exact (plain rfl entry.1 (by rw [below]; rfl)).elim
  | @tag parent tag' tagValue mapping' node _ inside unionForm _ =>
    obtain rfl := Catalog.eq_of_down_eq regular inside located below
    cases form.symm.trans unionForm
    cases Option.some.inj (congrArg Place.step below)
    rfl

end DraftAt

variable (regular : Regular schema) (unhinted : Unhinted catalog)
  (read : rules.drafts (.ofCatalog convention catalog) = .ok drafts)
  (lines : Draft ε μ → List String)
  (told : ∀ d ∈ drafts, ∀ declaration names,
    rules.draft (.ofCatalog convention catalog) declaration names = .ok d →
    d.ToldBy language (leadOf language catalog declaration.shape)
      (readBack language (Text.unlines (lines d))))

/-- The drafts as they are written. -/
def piecesOf (lines : Draft ε μ → List String) (drafts : List (Draft ε μ)) : List Piece :=
  drafts.map fun d => d.piece (lines d)

include read in
theorem nodup_map_name_piecesOf : ((piecesOf lines drafts).map Piece.name).Nodup := by
  rw [piecesOf, List.map_map]
  exact (Naming.nodup_map_type_resolve convention catalog).sublist (sublist_map_name_drafts read)

include mirrors linked regular unhinted read told

theorem variantFor_of_case {outer : Place} (located : Located schema rootName outer) {tag : String}
    {mapping : List (String × Node)} (form : outer.node.form = .discriminator tag mapping)
    {entry : String × Node} (member : entry ∈ mapping) {v : Nat}
    (found : (declaredPlaces schema rootName)[v]? =
      some (outer.down (.variant entry.1) entry.2))
    {triple : Nat × String × String} {k : Case} (number : triple.1 = v)
    (own : CaseOf rules (.ofCatalog convention catalog) triple k) :
    VariantFor language ((declaredPlaces schema rootName).zip (piecesOf lines drafts)) outer tag
      entry (k.tagValue, k.reference.text) := by
  subst number
  obtain ⟨declaration, names, d, draftAt⟩ :=
    exists_draftAt mirrors linked unhinted read found
  have listed : (piecesOf lines drafts)[triple.1]? = some (d.piece (lines d)) := by
    rw [piecesOf, List.getElem?_map, draftAt.listed, Option.map_some]
  constructor
  case tagValue =>
    obtain ⟨other, parent, members, additional, declared, shape⟩ := own.variant
    have tagValue := mirrors.tagValue?_of_place found
    have declared : catalog.declaration? triple.1 = some other := declared
    rw [Naming.tagValue?, Catalog.shape?, declared, Option.map_some, shape] at tagValue
    exact Option.some.inj tagValue
  case type =>
    refine ⟨_, List.mem_of_getElem? (List.getElem?_zip_eq_some.2 ⟨found, listed⟩), ?_, ?_⟩
    · rw [unhinted.reference own.reference, typeName_eq draftAt.named,
        (draft_eq_ok draftAt.drafted).2.1]
    · rintro rfl
      exact draftAt.head?_slots linked regular mirrors
        (told d (List.mem_of_getElem? draftAt.listed) declaration names draftAt.drafted) located
        form member rfl

theorem DraftAt.variants (draftAt : DraftAt rules (.ofCatalog convention catalog) schema rootName
      drafts id place declaration names d) {tag : String} {mapping : List (String × Node)}
    (form : place.node.form = .discriminator tag mapping) (some : mapping ≠ []) :
    ∃ variants, TellsUnion language tag variants (readBack language (Text.unlines (lines d))) ∧
      List.Forall₂ (VariantFor language
        ((declaredPlaces schema rootName).zip (piecesOf lines drafts)) place tag) mapping
        variants := by
  obtain ⟨numbers, shape, each⟩ := draftAt.describes.shape.of_discriminator form
  have own := told d (List.mem_of_getElem? draftAt.listed) declaration names draftAt.drafted
  have bodyOf := draftAt.bodyOf
  have fits := draftAt.fits linked
  rw [shape] at bodyOf fits
  obtain ⟨memberCount, constantCount⟩ := fits
  generalize same : d.body = body at bodyOf
  cases bodyOf with
  | @union _ _ cases' casesRead =>
    have known : ∀ entry ∈ numbers.zip (names.members.zip names.constants),
        (Naming.tagValue? catalog entry.1).isSome = true := by
      intro entry member
      obtain ⟨i, listed⟩ := List.mem_iff_getElem?.1 (List.of_mem_zip member).1
      obtain ⟨_, -, -, numbered⟩ := Catalog.getElem?_of_forall₂ each.flip listed
      rw [mirrors.tagValue?_of_place numbered]
      rfl
    have kept : List.Forall₂ (CaseOf rules (.ofCatalog convention catalog))
        ((numbers.zip (names.members.zip names.constants)).filter fun entry =>
          (Naming.tagValue? catalog entry.1).isSome) cases' := forall₂_of_cases casesRead
    rw [List.filter_eq_self.2 known] at kept
    have count : mapping.length = cases'.length := by
      rw [each.length_eq, ← kept.length_eq, List.length_zip, List.length_zip, memberCount,
        constantCount, Nat.min_self, Nat.min_self]
    refine ⟨variantTypes cases', own.union tag cases' same ?_, List.forall₂_map_right_iff.2
      (Catalog.forall₂_of_getElem? count fun i entry k left right => ?_)⟩
    · rintro rfl
      exact some (List.length_eq_zero_iff.1 count)
    · obtain ⟨v, listed, -, found⟩ := Catalog.getElem?_of_forall₂ each left
      obtain ⟨triple, paired, caseOf⟩ := Catalog.getElem?_of_forall₂ kept.flip right
      have number := (List.getElem?_zip_eq_some.1 paired).1
      exact variantFor_of_case mirrors linked regular unhinted read lines told
        (Catalog.located_of_getElem? draftAt.found) form (List.mem_of_getElem? left) found
        (Option.some.inj (number.symm.trans listed)) caseOf

omit regular in
theorem recalls_of_drafts (schemaRead : Schema.ofJson document = .ok schema) :
    ((piecesOf lines drafts).map Piece.name).Nodup ∧
      List.Forall₂ (Recalls language schema rootName
        ((declaredPlaces schema rootName).zip (piecesOf lines drafts)))
        (declaredPlaces schema rootName) (piecesOf lines drafts) := by
  have regular := Schema.regular_of_ofJson schemaRead
  have written : rules.written (.ofCatalog convention catalog) =
      catalog.declarations.zip (Naming.resolve convention catalog) :=
    Unhinted.written unhinted mirrors linked
  have resolved := Naming.length_resolve convention catalog
  have drafted := forall₂_of_drafts read
  rw [written] at drafted
  have count : (declaredPlaces schema rootName).length = (piecesOf lines drafts).length := by
    rw [piecesOf, List.length_map, ← drafted.length_eq, List.length_zip, resolved,
      mirrors.described.length_eq]
    exact (Nat.min_self _).symm
  refine ⟨nodup_map_name_piecesOf read lines,
    Catalog.forall₂_of_getElem? count fun id place piece found listed => ?_⟩
  obtain ⟨declaration, names, d, draftAt⟩ :=
    exists_draftAt mirrors linked unhinted read found
  rw [piecesOf, List.getElem?_map, draftAt.listed] at listed
  cases listed
  have own := told d (List.mem_of_getElem? draftAt.listed) declaration names draftAt.drafted
  constructor
  case name => exact own.name
  case properties =>
    intro required optional additional form
    have lead := lead_of_shape mirrors linked language found draftAt.declared draftAt.describes
    obtain ⟨requiredIncreasing, optionalIncreasing, disjoint⟩ :=
      (regular.nodes _ draftAt.within).properties _ _ _ form
    have members := areMembers_merge requiredIncreasing optionalIncreasing disjoint
    exact ⟨_, _, lead, members, draftAt.slots linked own form,
      draftAt.nodup_slots schemaRead lead form members⟩
  case enum => exact fun values form => draftAt.choices linked own form
  case union =>
    intro tag mapping form
    obtain ⟨_, _, _, nodeRead⟩ := Schema.readNode_of_contains schemaRead draftAt.within
    have some := (Schema.variants_of_readNode nodeRead form).1
    exact ⟨some, ((regular.nodes _ draftAt.within).mapping _ _ form).1,
      draftAt.variants mirrors linked regular unhinted read lines told form some⟩

end Recalling

end SchemaBindings.Binding
