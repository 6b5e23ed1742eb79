import SchemaBindings.Proofs.Json.Reordered
import SchemaBindings.Proofs.Schema.MapMetadata
import SchemaBindings.Proofs.Schema.Grammar
import SchemaBindings.Proofs.Schema.Success

/-! The order in which the members of a document are written never matters. What is read from the
canonical document is what is read from the document itself, with canonical values in the metadata,
and when nothing is read the fault is the same. -/

namespace SchemaBindings

open Keyed (mapValues)

/-- The metadata with canonical values for what is kept as it is. -/
def Metadata.canonical (m : Metadata) : Metadata :=
  { m with extensions := mapValues Json.canonical m.extensions }

namespace Schema

open Grammar (Subnode)

section Parts

variable (here : Pointer) (fields : List (String × Json))

theorem checkKeywords_mapValues (isRoot : Bool) (f : Json → Json) :
    checkKeywords isRoot here (mapValues f fields) = checkKeywords isRoot here fields := by
  induction fields with
  | nil => rfl
  | cons entry rest ih => rw [Keyed.mapValues_cons, checkKeywords, ih, checkKeywords]

theorem presentGroups_mapValues (f : Json → Json) :
    presentGroups (mapValues f fields) = presentGroups fields := by
  rw [presentGroups, funext (Keyed.has_mapValues f fields), presentGroups]

theorem readFlag_canonical (keyword : String) :
    readFlag here (mapValues Json.canonical fields) keyword = readFlag here fields keyword := by
  rw [readFlag, Keyed.lookup_mapValues, readFlag]
  cases fields.lookup keyword with
  | none => rfl
  | some value => cases value <;> rfl

theorem readEnumDescriptions_canonical (entries : List (String × Json)) :
    readEnumDescriptions here (mapValues Json.canonical entries) =
      readEnumDescriptions here entries := by
  induction entries with
  | nil => rfl
  | cons entry rest ih =>
    obtain ⟨key, value⟩ := entry
    cases value with
    | string text =>
      simp only [Keyed.mapValues_cons, Json.canonical, readEnumDescriptions, ih]
    | _ => rfl

theorem readMetadataFields_canonical (entries : List (String × Json)) :
    readMetadataFields here (mapValues Json.canonical entries) =
      Metadata.canonical <$> readMetadataFields here entries := by
  induction entries with
  | nil => rfl
  | cons entry rest ih =>
    obtain ⟨key, value⟩ := entry
    simp only [Keyed.mapValues_cons, readMetadataFields, ih]
    split
    · cases value with
      | string text =>
        simp only [Json.canonical, bind_map_left, map_bind, map_pure]
        rfl
      | _ => rfl
    split
    · simp only [Json.fields?_canonical]
      cases value.fields? with
      | none => rfl
      | some described =>
        simp only [Option.map_some, readEnumDescriptions_canonical, bind_map_left, map_bind,
          map_pure]
        rfl
    · simp only [bind_map_left, map_bind, map_pure]
      rfl

theorem readMetadata_canonical :
    readMetadata here (mapValues Json.canonical fields) =
      Metadata.canonical <$> readMetadata here fields := by
  rw [readMetadata, Keyed.lookup_mapValues, readMetadata]
  cases fields.lookup "metadata" with
  | none => rfl
  | some value =>
    simp only [Option.map_some, Json.fields?_canonical]
    cases value.fields? with
    | none => rfl
    | some entries => exact readMetadataFields_canonical _ entries

theorem readRef_canonical (definitions : List String) (value : Json) :
    readRef definitions here value.canonical = readRef definitions here value := by
  cases value <;> rfl

theorem mapMetadata_readRef (f : Metadata → Metadata) (definitions : List String) (value : Json) :
    Form.mapMetadata f <$> readRef definitions here value = readRef definitions here value := by
  cases value with
  | string name =>
    simp only [readRef]
    split
    · exact congrArg Except.ok (by rw [Form.mapMetadata])
    · rfl
  | _ => rfl

theorem readType_canonical (value : Json) :
    readType here value.canonical = readType here value := by
  cases value <;> rfl

theorem mapMetadata_readType (f : Metadata → Metadata) (value : Json) :
    Form.mapMetadata f <$> readType here value = readType here value := by
  cases value with
  | string keyword =>
    simp only [readType]
    split
    · exact congrArg Except.ok (by rw [Form.mapMetadata])
    · rfl
  | _ => rfl

theorem readEnumValues_canonical (index : Nat) (seen : List String) (items : List Json) :
    readEnumValues here index seen (items.map Json.canonical) =
      readEnumValues here index seen items := by
  induction items generalizing index seen with
  | nil => rfl
  | cons item rest ih =>
    cases item with
    | string text => simp only [List.map_cons, Json.canonical, readEnumValues, ih]
    | _ => rfl

theorem readEnum_canonical (value : Json) :
    readEnum here value.canonical = readEnum here value := by
  cases value with
  | array items =>
    rw [Json.canonical, Json.canonicalItems_eq_map]
    cases items with
    | nil => rfl
    | cons item rest =>
      have same := readEnumValues_canonical here 0 [] (item :: rest)
      rw [List.map_cons] at same
      simp only [List.map_cons, readEnum, same]
  | _ => rfl

theorem mapMetadata_readEnum (f : Metadata → Metadata) (value : Json) :
    Form.mapMetadata f <$> readEnum here value = readEnum here value := by
  cases value with
  | array items =>
    cases items with
    | nil => rfl
    | cons item rest => simp only [readEnum, map_bind, map_pure, Form.mapMetadata]
  | _ => rfl

theorem checkVariant_mapMetadata (f : Metadata → Metadata) (tag tagValue : String) (node : Node) :
    checkVariant tag tagValue here (node.mapMetadata f) =
      checkVariant tag tagValue here node := by
  rw [checkVariant, Node.form_mapMetadata, Node.nullable_mapMetadata, checkVariant]
  cases node.form with
  | properties required optional additional =>
    simp only [Form.mapMetadata, mapEntries_eq_mapValues, Keyed.has_mapValues]
  | _ => simp only [Form.mapMetadata]

end Parts

section Nodes

variable (definitions : List String) (here : Pointer)

/-- Reading the canonical value gives the node with canonical metadata. -/
def ReadsCanonical (value : Json) : Prop :=
  ∀ here, readNode definitions false here value.canonical =
    Node.mapMetadata Metadata.canonical <$> readNode definitions false here value

variable {definitions}

theorem readEntries_canonical (check : String → Pointer → Node → Except Fault Unit)
    (kept : ∀ name here node, check name here (node.mapMetadata Metadata.canonical) =
      check name here node) {entries : List (String × Json)}
    (each : ∀ entry ∈ entries, ReadsCanonical definitions entry.2) :
    readEntries definitions here check (mapValues Json.canonical entries) =
      mapValues (Node.mapMetadata Metadata.canonical) <$>
        readEntries definitions here check entries := by
  induction entries with
  | nil =>
    rw [Keyed.mapValues_nil, readEntries]
    rfl
  | cons entry rest ih =>
    obtain ⟨first, later⟩ := List.forall_mem_cons.1 each
    rw [Keyed.mapValues_cons, readEntries, first, ih later, readEntries]
    simp only [bind_map_left, map_bind, map_pure, kept, Keyed.mapValues_cons]

theorem readNodes_canonical {fields : List (String × Json)} (keyword : String)
    (each : ∀ held, fields.lookup keyword = some held → ∀ entries, held.fields? = some entries →
      ∀ entry ∈ entries, ReadsCanonical definitions entry.2) :
    readNodes definitions here (mapValues Json.canonical fields) keyword =
      mapValues (Node.mapMetadata Metadata.canonical) <$>
        readNodes definitions here fields keyword := by
  rw [readNodes_eq, Keyed.lookup_mapValues, readNodes_eq]
  cases found : fields.lookup keyword with
  | none => rfl
  | some held =>
    simp only [Option.map_some, Json.fields?_canonical]
    cases object : held.fields? with
    | none => rfl
    | some entries =>
      exact readEntries_canonical _ _ (fun _ _ _ => rfl) (each held found entries object)

theorem find_overlap_mapMetadata (f : Metadata → Metadata)
    (required optional : List (String × Node)) :
    (mapValues (Node.mapMetadata f) optional).find?
        (fun entry => Keyed.has (mapValues (Node.mapMetadata f) required) entry.1) =
      (optional.find? (fun entry => Keyed.has required entry.1)).map
        (fun entry => (entry.1, entry.2.mapMetadata f)) := by
  simp only [Keyed.has_mapValues]
  rw [mapValues, List.find?_map]
  rfl

variable {value : Json} {fields : List (String × Json)}

theorem readForm_canonical_of_properties (object : value.fields? = some fields)
    (each : ∀ child, Subnode value child → ReadsCanonical definitions child)
    (present : presentGroups fields = [.properties]) :
    readForm definitions here (mapValues Json.canonical fields) =
      Form.mapMetadata Metadata.canonical <$> readForm definitions here fields := by
  have members (keyword : String) (holds : keyword ∈ ["properties", "optionalProperties",
      "mapping"]) := readNodes_canonical here keyword fun held found entries inner entry member =>
    each entry.2 (.of_mem object holds found inner member)
  rw [readForm_of_properties ((presentGroups_mapValues fields Json.canonical).trans present),
    readForm_of_properties present, members "properties" (by decide),
    members "optionalProperties" (by decide), readFlag_canonical, Keyed.has_mapValues,
    Keyed.has_mapValues]
  split
  · rfl
  · simp only [bind_map_left, map_bind]
    refine bind_congr fun required => bind_congr fun optional => ?_
    rw [find_overlap_mapMetadata]
    cases optional.find? (fun entry => Keyed.has required entry.1) with
    | some entry => rfl
    | none => simp only [Option.map_none, map_bind, map_pure, Form.mapMetadata,
        mapEntries_eq_mapValues]

theorem readForm_canonical_of_discriminator (object : value.fields? = some fields)
    (each : ∀ child, Subnode value child → ReadsCanonical definitions child)
    (present : presentGroups fields = [.discriminator]) :
    readForm definitions here (mapValues Json.canonical fields) =
      Form.mapMetadata Metadata.canonical <$> readForm definitions here fields := by
  rw [readForm_of_discriminator ((presentGroups_mapValues fields Json.canonical).trans present),
    readForm_of_discriminator present, Keyed.lookup_mapValues, Keyed.lookup_mapValues]
  cases tagFound : fields.lookup "discriminator" with
  | none => rfl
  | some tagValue =>
    cases found : fields.lookup "mapping" with
    | none => rfl
    | some mapping =>
      cases tagValue with
      | string tag =>
        cases mapping with
        | object members =>
          have read := readEntries_canonical (here.child "mapping") (checkVariant tag)
            (fun name here node => checkVariant_mapMetadata here Metadata.canonical tag name node)
            fun entry member => each entry.2 (.of_mem object (by decide) found rfl member)
          have empty : (mapValues Json.canonical (Keyed.ofList members)).isEmpty =
              members.isEmpty := by
            rw [Bool.eq_iff_iff, List.isEmpty_iff, List.isEmpty_iff, mapValues,
              List.map_eq_nil_iff, Keyed.ofList_eq_nil]
          simp only [Option.map_some, Json.canonical_object, Json.canonical_string,
            Keyed.ofList_mapValues_ofList, empty, read]
          split
          · rfl
          · simp only [bind_map_left, map_bind, map_pure, Form.mapMetadata,
              mapEntries_eq_mapValues]
        | _ => rfl
      | _ => cases mapping <;> rfl

/-- The form is read from the canonical fields when that is so for all values right below. -/
theorem readForm_canonical (object : value.fields? = some fields)
    (each : ∀ child, Subnode value child → ReadsCanonical definitions child) :
    readForm definitions here (mapValues Json.canonical fields) =
      Form.mapMetadata Metadata.canonical <$> readForm definitions here fields := by
  have mapped {key : String} {held : Json} (found : fields.lookup key = some held) :
      (mapValues Json.canonical fields).lookup key = some held.canonical :=
    (Keyed.lookup_mapValues ..).trans (congrArg _ found)
  have same := presentGroups_mapValues fields Json.canonical
  match present : presentGroups fields with
  | [] =>
    rw [readForm_empty (same.trans present), readForm_empty present]
    exact congrArg Except.ok (by rw [Form.mapMetadata])
  | [.ref] =>
    obtain ⟨held, found⟩ := lookup_of_present present rfl
    rw [readForm_ref (same.trans present) (mapped found), readForm_ref present found,
      readRef_canonical, mapMetadata_readRef]
  | [.type] =>
    obtain ⟨held, found⟩ := lookup_of_present present rfl
    rw [readForm_type (same.trans present) (mapped found), readForm_type present found,
      readType_canonical, mapMetadata_readType]
  | [.enum] =>
    obtain ⟨held, found⟩ := lookup_of_present present rfl
    rw [readForm_enum (same.trans present) (mapped found), readForm_enum present found,
      readEnum_canonical, mapMetadata_readEnum]
  | [.elements] =>
    obtain ⟨item, found⟩ := lookup_of_present present rfl
    rw [readForm_elements (same.trans present) (mapped found), readForm_elements present found,
      each item (.of_lookup object (by decide) found)]
    simp only [bind_map_left, map_bind, map_pure, Form.mapMetadata]
  | [.values] =>
    obtain ⟨item, found⟩ := lookup_of_present present rfl
    rw [readForm_values (same.trans present) (mapped found), readForm_values present found,
      each item (.of_lookup object (by decide) found)]
    simp only [bind_map_left, map_bind, map_pure, Form.mapMetadata]
  | [.properties] => exact readForm_canonical_of_properties here object each present
  | [.discriminator] => exact readForm_canonical_of_discriminator here object each present
  | _ :: _ :: _ =>
    rw [readForm, same.trans present, if_pos (by simp), readForm, present, if_pos (by simp)]
    rfl

theorem readNode_canonical (definitions : List String) (isRoot : Bool) (here : Pointer)
    (value : Json) :
    readNode definitions isRoot here value.canonical =
      Node.mapMetadata Metadata.canonical <$> readNode definitions isRoot here value := by
  cases value with
  | object members =>
    have each (child : Json) (below : Subnode (.object members) child) :
        ReadsCanonical definitions child := fun here =>
      have := Grammar.weight_of_subnode below
      readNode_canonical definitions false here child
    have form := readForm_canonical here rfl each
    rw [Json.canonical_object, readNode, readNode]
    simp only [Keyed.ofList_mapValues_ofList, checkKeywords_mapValues, readMetadata_canonical,
      readFlag_canonical, form, bind_map_left, map_bind, map_pure, Node.mapMetadata]
  | _ =>
    simp only [Json.canonical, readNode]
    rfl
termination_by value.weight

end Nodes

theorem readAll_canonical (document : Json) (definitions : List (String × Json)) :
    readAll document.canonical (mapValues Json.canonical definitions) =
      Schema.mapMetadata Metadata.canonical <$> readAll document definitions := by
  have each (entry : String × Json) (_ : entry ∈ definitions) :
      ReadsCanonical (Keyed.keys definitions) entry.2 :=
    fun here => readNode_canonical _ false here entry.2
  have entries (here : Pointer) :=
    readEntries_canonical here (fun _ _ _ => .ok ()) (fun _ _ _ => rfl) each
  simp only [readAll, Keyed.keys_mapValues, readNode_canonical, entries, bind_map_left, map_bind,
    map_pure, checkRefChains_mapMetadata, Schema.mapMetadata, mapEntries_eq_mapValues]

/-- The schema of a canonical document, and the fault of one that is none. -/
theorem ofJson_canonical (document : Json) :
    ofJson document.canonical = Schema.mapMetadata Metadata.canonical <$> ofJson document := by
  rw [ofJson_eq_readAll, Json.fields?_canonical, ofJson_eq_readAll]
  cases document.fields? with
  | none => rfl
  | some fields =>
    simp only [Option.map_some, Keyed.lookup_mapValues]
    cases fields.lookup "definitions" with
    | none => exact readAll_canonical document []
    | some value =>
      simp only [Option.map_some, Json.fields?_canonical]
      cases value.fields? with
      | none => rfl
      | some entries => exact readAll_canonical document entries

end Schema

end SchemaBindings
