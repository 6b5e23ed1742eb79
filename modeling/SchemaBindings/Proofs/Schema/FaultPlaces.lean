import SchemaBindings.Proofs.Json.Lookup
import SchemaBindings.Proofs.Schema.Acceptance

/-! Where faults are. The pointer of every fault leads to a value of the document that was read, and
a fault about a chain of references names a definition that lies on a cycle. -/

namespace SchemaBindings.Schema

open Keyed (keys)
open Pointer (LeadsTo)
open Grammar (Subnode)

/-- Whether a fault is about a chain of references. -/
def ofChain : Cause → Bool
  | .cyclicRef _ => true
  | _ => false

/-- A fault that is found while nodes are read: its place is in the document, and it is not about
chains of references, which are followed later. -/
structure Located (document : Json) (fault : Fault) : Prop where
  place : ∃ value, LeadsTo document fault.path value
  direct : ofChain fault.cause = false

/-- The entries are members of the value at a place. -/
def StandBelow (document : Json) (here : Pointer) (entries : List (String × Json)) : Prop :=
  ∀ entry ∈ entries, LeadsTo document (here.child entry.1) entry.2

variable {document value : Json} {here : Pointer} {fault : Fault}
  {fields entries : List (String × Json)}

theorem standBelow_of_fields (leads : LeadsTo document here value)
    (object : value.fields? = some fields) : StandBelow document here fields :=
  fun _ member => leads.field object (Keyed.lookup_of_mem (Json.increasing_fields object) member)

theorem StandBelow.lookup (below : StandBelow document here fields) {key : String}
    (found : fields.lookup key = some value) : LeadsTo document (here.child key) value :=
  below (key, value) (Keyed.mem_of_lookup found)

theorem StandBelow.mem_keys (below : StandBelow document here fields) {key : String}
    (member : key ∈ keys fields) : ∃ held, LeadsTo document (here.child key) held := by
  obtain ⟨held, found⟩ := Keyed.mem_keys_iff_lookup.1 member
  exact ⟨held, below.lookup found⟩

theorem located_of_wrongType {α : Type} {keyword : String} {expected : Expected}
    (leads : LeadsTo document here value)
    (failed : (wrongType here keyword expected : Except Fault α) = .error fault) :
    Located document fault := by
  cases failed
  exact ⟨⟨value, leads⟩, rfl⟩

section Parts

theorem located_of_checkKeywords {isRoot : Bool} (below : StandBelow document here fields)
    (failed : checkKeywords isRoot here fields = .error fault) : Located document fault := by
  induction fields with
  | nil => cases failed
  | cons head rest ih =>
    obtain ⟨first, later⟩ := List.forall_mem_cons.1 below
    simp only [checkKeywords] at failed
    split at failed
    · cases failed
      exact ⟨⟨_, first⟩, rfl⟩
    · split at failed
      · cases failed
        exact ⟨⟨_, first⟩, rfl⟩
      · exact ih later failed

theorem located_of_readFlag {keyword : String} (below : StandBelow document here fields)
    (failed : readFlag here fields keyword = .error fault) : Located document fault := by
  unfold readFlag at failed
  split at failed
  · cases failed
  · cases failed
  · rename_i found
    exact located_of_wrongType (below.lookup found) failed

theorem located_of_readEnumDescriptions (below : StandBelow document here entries)
    (failed : readEnumDescriptions here entries = .error fault) : Located document fault := by
  induction entries with
  | nil => cases failed
  | cons head rest ih =>
    obtain ⟨key, value⟩ := head
    obtain ⟨first, later⟩ := List.forall_mem_cons.1 below
    cases value with
    | string text =>
      rcases (bind_eq_error ..).1 failed with failed | ⟨_, -, failed⟩
      · exact ih later failed
      · cases failed
    | _ => exact located_of_wrongType first failed

theorem located_of_readMetadataFields (below : StandBelow document here entries)
    (failed : readMetadataFields here entries = .error fault) : Located document fault := by
  induction entries with
  | nil => cases failed
  | cons head rest ih =>
    obtain ⟨key, value⟩ := head
    obtain ⟨first, later⟩ := List.forall_mem_cons.1 below
    have ofRest {f : Metadata → Metadata}
        (failed : (do return f (← readMetadataFields here rest) : Except Fault Metadata) =
          .error fault) : Located document fault := by
      rcases (bind_eq_error ..).1 failed with failed | ⟨_, -, failed⟩
      · exact ih later failed
      · cases failed
    simp only [readMetadataFields] at failed
    split at failed
    · split at failed
      · exact ofRest failed
      · exact located_of_wrongType first failed
    · split at failed
      · split at failed
        · rename_i described object
          rcases (bind_eq_error ..).1 failed with failed | ⟨_, -, failed⟩
          · exact located_of_readEnumDescriptions (standBelow_of_fields first object) failed
          · exact ofRest failed
        · exact located_of_wrongType first failed
      · exact ofRest failed

theorem located_of_readMetadata (below : StandBelow document here fields)
    (failed : readMetadata here fields = .error fault) : Located document fault := by
  unfold readMetadata at failed
  split at failed
  · cases failed
  · rename_i found
    split at failed
    · rename_i object
      exact located_of_readMetadataFields (standBelow_of_fields (below.lookup found) object) failed
    · exact located_of_wrongType (below.lookup found) failed

theorem located_of_readRef {definitions : List String} (leads : LeadsTo document here value)
    (failed : readRef definitions here value = .error fault) : Located document fault := by
  cases value with
  | string name =>
    simp only [readRef] at failed
    split at failed
    · cases failed
    · cases failed
      exact ⟨⟨_, leads⟩, rfl⟩
  | _ => exact located_of_wrongType leads failed

theorem located_of_readType (leads : LeadsTo document here value)
    (failed : readType here value = .error fault) : Located document fault := by
  cases value with
  | string keyword =>
    simp only [readType] at failed
    split at failed
    · cases failed
    · cases failed
      exact ⟨⟨_, leads⟩, rfl⟩
  | _ => exact located_of_wrongType leads failed

/-- The values of an enumeration, from any index on. -/
theorem located_of_readEnumValues {index : Nat} {seen : List String} {items : List Json}
    (leads : ∀ i item, items[i]? = some item → LeadsTo document (here.element (index + i)) item)
    (failed : readEnumValues here index seen items = .error fault) : Located document fault := by
  induction items generalizing index seen with
  | nil => cases failed
  | cons item rest ih =>
    have first := leads 0 item rfl
    have later : ∀ i item, rest[i]? = some item →
        LeadsTo document (here.element (index + 1 + i)) item := by
      intro i item found
      rw [Nat.add_right_comm]
      exact leads (i + 1) item (by simpa using found)
    cases item with
    | string text =>
      simp only [readEnumValues] at failed
      split at failed
      · cases failed
        exact ⟨⟨_, first⟩, rfl⟩
      · rcases (bind_eq_error ..).1 failed with failed | ⟨_, -, failed⟩
        · exact ih later failed
        · cases failed
    | _ => exact located_of_wrongType first failed

theorem located_of_readEnum (leads : LeadsTo document here value)
    (failed : readEnum here value = .error fault) : Located document fault := by
  cases value with
  | array items =>
    cases items with
    | nil =>
      cases failed
      exact ⟨⟨_, leads⟩, rfl⟩
    | cons item rest =>
      rcases (bind_eq_error ..).1 failed with failed | ⟨_, -, failed⟩
      · refine located_of_readEnumValues (fun i item found => ?_) failed
        rw [Nat.zero_add]
        exact leads.item found
      · cases failed
  | _ => exact located_of_wrongType leads failed

end Parts

section Nodes

variable {names : List String}

theorem leadsTo_of_mem_readNodes {keyword name : String} {nodes : List (String × Node)}
    (below : StandBelow document here fields)
    (read : readNodes names here fields keyword = .ok nodes) (member : name ∈ keys nodes) :
    ∃ held, LeadsTo document (here.descend [keyword, name]) held := by
  rcases (readNodes_eq_ok ..).1 read with ⟨-, rfl⟩ | ⟨_, entries, found, object, read⟩
  · cases member
  · rw [keys_readEntries read] at member
    exact (standBelow_of_fields (below.lookup found) object).mem_keys member

/-- What keeps a node from being a mapping entry stands in the node. -/
theorem located_of_checkVariant {tag tagValue : String} {node : Node}
    (leads : LeadsTo document here value)
    (read : readNode names false here value = .ok node)
    (failed : checkVariant tag tagValue here node = .error fault) : Located document fault := by
  obtain ⟨fields, object, -, -, nullableRead, formRead⟩ := (readNode_eq_ok ..).1 read
  have below := standBelow_of_fields leads object
  have formRead := (readForm_eq_ok _).1 formRead
  unfold checkVariant at failed
  split at failed
  · rename_i required optional additional form
    rw [form] at formRead
    cases formRead with
    | properties _ _ requiredRead optionalRead _ _ =>
      split at failed
      · rename_i nullable
        cases failed
        rcases (readFlag_eq_ok ..).1 nullableRead with ⟨-, same⟩ | found
        · exact absurd (same.symm.trans nullable) Bool.false_ne_true
        · exact ⟨⟨_, below.lookup found⟩, rfl⟩
      · split at failed
        · rename_i has
          cases failed
          exact ⟨leadsTo_of_mem_readNodes below requiredRead (Keyed.has_iff_mem_keys.1 has), rfl⟩
        · split at failed
          · rename_i has
            cases failed
            have key := Keyed.has_iff_mem_keys.1 has
            exact ⟨leadsTo_of_mem_readNodes below optionalRead key, rfl⟩
          · cases failed
  · cases failed
    exact ⟨⟨value, leads⟩, rfl⟩

/-- Entries fail where one of their nodes does, or where the check of a node that was read does. -/
theorem located_of_readEntries {check : String → Pointer → Node → Except Fault Unit}
    (each : ∀ entry ∈ entries, ∀ fault,
      readNode names false (here.child entry.1) entry.2 = .error fault → Located document fault)
    (checked : ∀ entry ∈ entries, ∀ node fault,
      readNode names false (here.child entry.1) entry.2 = .ok node →
      check entry.1 (here.child entry.1) node = .error fault → Located document fault)
    (failed : readEntries names here check entries = .error fault) : Located document fault := by
  induction entries with
  | nil =>
    rw [readEntries] at failed
    cases failed
  | cons head rest ih =>
    obtain ⟨first, later⟩ := List.forall_mem_cons.1 each
    obtain ⟨firstChecked, laterChecked⟩ := List.forall_mem_cons.1 checked
    rw [readEntries] at failed
    rcases (bind_eq_error ..).1 failed with failed | ⟨node, read, failed⟩
    · exact first _ failed
    rcases (bind_eq_error ..).1 failed with failed | ⟨_, -, failed⟩
    · exact firstChecked node _ read failed
    rcases (bind_eq_error ..).1 failed with failed | ⟨_, -, failed⟩
    · exact ih later laterChecked failed
    · cases failed

theorem located_of_readNodes {keyword : String} (below : StandBelow document here fields)
    (each : ∀ held, fields.lookup keyword = some held → ∀ entries, held.fields? = some entries →
      ∀ entry ∈ entries, ∀ fault,
        readNode names false ((here.child keyword).child entry.1) entry.2 = .error fault →
          Located document fault)
    (failed : readNodes names here fields keyword = .error fault) : Located document fault := by
  unfold readNodes at failed
  split at failed
  · cases failed
  · rename_i members found
    refine located_of_readEntries (each _ found _ rfl) ?_ failed
    intro _ _ _ _ _ failed
    cases failed
  · rename_i found
    exact located_of_wrongType (below.lookup found) failed

/-- What fails to be read as a node right below a value fails at a place in the document. -/
def SubnodesLocated (names : List String) (document value : Json) : Prop :=
  ∀ child, Subnode value child → ∀ place fault, LeadsTo document place child →
    readNode names false place child = .error fault → Located document fault

theorem SubnodesLocated.item (each : SubnodesLocated names document value)
    (leads : LeadsTo document here value) (object : value.fields? = some fields) {keyword : String}
    {item : Json} (holds : keyword ∈ ["elements", "values"])
    (found : fields.lookup keyword = some item)
    (failed : readNode names false (here.child keyword) item = .error fault) :
    Located document fault :=
  each item (.of_lookup object holds found) _ fault
    ((standBelow_of_fields leads object).lookup found) failed

theorem SubnodesLocated.entry (each : SubnodesLocated names document value)
    (leads : LeadsTo document here value) (object : value.fields? = some fields) {keyword : String}
    (holds : keyword ∈ ["properties", "optionalProperties", "mapping"]) (held : Json)
    (found : fields.lookup keyword = some held) (entries : List (String × Json))
    (inner : held.fields? = some entries) (entry : String × Json) (member : entry ∈ entries)
    (fault : Fault)
    (failed : readNode names false ((here.child keyword).child entry.1) entry.2 = .error fault) :
    Located document fault := by
  have held := (standBelow_of_fields leads object).lookup found
  exact each entry.2 (.of_mem object holds found inner member) _ fault
    (standBelow_of_fields held inner entry member) failed

/-- A record fails at its third keyword when it has no other, at a name that stands under both
others, or where one of its members does. -/
theorem located_of_properties (leads : LeadsTo document here value)
    (object : value.fields? = some fields) (each : SubnodesLocated names document value)
    (present : presentGroups fields = [.properties])
    (failed : readForm names here fields = .error fault) : Located document fault := by
  have below := standBelow_of_fields leads object
  rw [readForm_of_properties present] at failed
  split at failed
  · rename_i neither
    cases failed
    simp only [Bool.and_eq_true, Bool.not_eq_true', Bool.eq_false_iff, ne_eq,
      Keyed.has_iff_mem_keys] at neither
    rcases keyword_of_properties present with key | key | key
    · exact absurd key neither.1
    · exact absurd key neither.2
    · exact ⟨below.mem_keys key, rfl⟩
  · rcases (bind_eq_error ..).1 failed with failed | ⟨required, -, failed⟩
    · exact located_of_readNodes below (each.entry leads object (by decide)) failed
    rcases (bind_eq_error ..).1 failed with failed | ⟨optional, optionalRead, failed⟩
    · exact located_of_readNodes below (each.entry leads object (by decide)) failed
    split at failed
    · rename_i name node overlap
      cases failed
      have member : name ∈ keys optional :=
        Keyed.mem_keys.2 ⟨node, List.mem_of_find?_eq_some overlap⟩
      exact ⟨leadsTo_of_mem_readNodes below optionalRead member, rfl⟩
    · rcases (bind_eq_error ..).1 failed with failed | ⟨_, -, failed⟩
      · exact located_of_readFlag below failed
      · cases failed

/-- A union fails at the one keyword it has, at the value of one of the two, or where one of its
variants is no node or no variant. -/
theorem located_of_discriminator (leads : LeadsTo document here value)
    (object : value.fields? = some fields) (each : SubnodesLocated names document value)
    (present : presentGroups fields = [.discriminator])
    (failed : readForm names here fields = .error fault) : Located document fault := by
  have below := standBelow_of_fields leads object
  rw [readForm_of_discriminator present] at failed
  split at failed
  · rename_i absent
    cases failed
    have key := (keyword_of_discriminator present).resolve_left
      (Keyed.lookup_eq_none_iff_keys.1 absent)
    exact ⟨below.mem_keys key, rfl⟩
  · rename_i absent _
    cases failed
    have key := (keyword_of_discriminator present).resolve_right
      (Keyed.lookup_eq_none_iff_keys.1 absent)
    exact ⟨below.mem_keys key, rfl⟩
  · rename_i tag members _ found
    split at failed
    · cases failed
      exact ⟨⟨_, below.lookup found⟩, rfl⟩
    · rcases (bind_eq_error ..).1 failed with failed | ⟨_, -, failed⟩
      · refine located_of_readEntries
          (each.entry leads object (by decide) _ found _ rfl) ?_ failed
        intro entry member node fault read failed
        have leads := standBelow_of_fields (below.lookup found) rfl entry member
        exact located_of_checkVariant leads read failed
      · cases failed
  · rename_i found
    exact located_of_wrongType (below.lookup found) failed
  · rename_i found _
    exact located_of_wrongType (below.lookup found) failed

/-- A form fails at a keyword of its node, or where a node below does. -/
theorem located_of_readForm (leads : LeadsTo document here value)
    (object : value.fields? = some fields) (each : SubnodesLocated names document value)
    (failed : readForm names here fields = .error fault) : Located document fault := by
  have below := standBelow_of_fields leads object
  match present : presentGroups fields with
  | [] =>
    rw [readForm_empty present] at failed
    cases failed
  | [.ref] =>
    obtain ⟨held, found⟩ := lookup_of_present present rfl
    rw [readForm_ref present found] at failed
    exact located_of_readRef (below.lookup found) failed
  | [.type] =>
    obtain ⟨held, found⟩ := lookup_of_present present rfl
    rw [readForm_type present found] at failed
    exact located_of_readType (below.lookup found) failed
  | [.enum] =>
    obtain ⟨held, found⟩ := lookup_of_present present rfl
    rw [readForm_enum present found] at failed
    exact located_of_readEnum (below.lookup found) failed
  | [.elements] =>
    obtain ⟨item, found⟩ := lookup_of_present present rfl
    rw [readForm_elements present found] at failed
    rcases (bind_eq_error ..).1 failed with failed | ⟨_, -, failed⟩
    · exact each.item leads object (by decide) found failed
    · cases failed
  | [.values] =>
    obtain ⟨item, found⟩ := lookup_of_present present rfl
    rw [readForm_values present found] at failed
    rcases (bind_eq_error ..).1 failed with failed | ⟨_, -, failed⟩
    · exact each.item leads object (by decide) found failed
    · cases failed
  | [.properties] => exact located_of_properties leads object each present failed
  | [.discriminator] => exact located_of_discriminator leads object each present failed
  | _ :: _ :: _ =>
    rw [readForm, present, if_pos (by simp)] at failed
    cases failed
    exact ⟨⟨value, leads⟩, rfl⟩

theorem located_of_readNode (isRoot : Bool) (here : Pointer) (value : Json) (fault : Fault)
    (leads : LeadsTo document here value)
    (failed : readNode names isRoot here value = .error fault) : Located document fault := by
  cases value with
  | object members =>
    have below := standBelow_of_fields leads rfl
    rw [readNode] at failed
    rcases (bind_eq_error ..).1 failed with failed | ⟨_, -, failed⟩
    · exact located_of_checkKeywords below failed
    rcases (bind_eq_error ..).1 failed with failed | ⟨_, -, failed⟩
    · exact located_of_readMetadata below failed
    rcases (bind_eq_error ..).1 failed with failed | ⟨_, -, failed⟩
    · exact located_of_readFlag below failed
    rcases (bind_eq_error ..).1 failed with failed | ⟨_, -, failed⟩
    · exact located_of_readForm leads rfl
        (fun child below place fault leads failed =>
          have := Grammar.weight_of_subnode below
          located_of_readNode false place child fault leads failed) failed
    · cases failed
  | _ =>
    simp only [readNode] at failed
    cases failed
    exact ⟨⟨_, leads⟩, rfl⟩
termination_by value.weight

end Nodes

/-- A repeated name is found by following references from a definition. -/
theorem checkRefChains_eq_error {definitions : List (String × Node)}
    (failed : checkRefChains definitions = .error fault) :
    ∃ name, fault = ⟨.cyclicRef name, Pointer.root.descend ["definitions", name]⟩ ∧
      Relation.TransGen (RefersTo definitions) name name := by
  unfold checkRefChains at failed
  split at failed
  · rename_i name found
    cases failed
    obtain ⟨d, -, again⟩ := List.exists_of_findSome?_eq_some found
    exact ⟨name, rfl, repeatedFrom_on_cycle (by simp) again⟩
  · cases failed

/-- The definition that a pointer leads to lies on a cycle of references. -/
def PointsAtCycle (document : Json) (fault : Fault) : Prop :=
  ∃ name definition, fault = ⟨.cyclicRef name, Pointer.root.descend ["definitions", name]⟩ ∧
    LeadsTo document fault.path definition ∧ Grammar.Defines document name definition ∧
    Relation.TransGen (Grammar.RefersTo document) name name

section Documents

variable {definitions : List (String × Json)}

/-- Reading the nodes of a document fails at one of them, or at a cycle of definitions. -/
theorem located_or_pointsAtCycle (object : document.fields? = some fields)
    (found : (fields.lookup "definitions" = none ∧ definitions = []) ∨
      ∃ value, fields.lookup "definitions" = some value ∧ value.fields? = some definitions)
    (failed : readAll document definitions = .error fault) :
    Located document fault ∨ PointsAtCycle document fault := by
  have below : StandBelow document (Pointer.root.child "definitions") definitions := by
    rcases found with ⟨-, rfl⟩ | ⟨held, found, inner⟩
    · exact List.forall_mem_nil _
    · exact standBelow_of_fields ((Pointer.leadsTo_root document).field object found) inner
  rcases (bind_eq_error ..).1 failed with failed | ⟨_, -, failed⟩
  · exact .inl (located_of_readNode _ _ _ _ (Pointer.leadsTo_root document) failed)
  rcases (bind_eq_error ..).1 failed with failed | ⟨nodes, read, failed⟩
  · refine .inl (located_of_readEntries (fun entry member fault failed =>
      located_of_readNode _ _ _ _ (below entry member) failed) ?_ failed)
    intro _ _ _ _ _ failed
    cases failed
  rcases (bind_eq_error ..).1 failed with failed | ⟨_, -, failed⟩
  · obtain ⟨name, rfl, cycle⟩ := checkRefChains_eq_error failed
    have same : RefersTo nodes = Grammar.RefersTo document := by
      funext name target
      exact propext (refersTo_iff object found read name target)
    rw [same] at cycle
    obtain ⟨target, ⟨definition, defines, -⟩, -⟩ := Relation.TransGen.head'_iff.1 cycle
    have leads := below (name, definition) ((defines_iff object found name definition).1 defines)
    exact .inr ⟨name, definition, rfl, leads, defines, cycle⟩
  · exact absurd failed (pure_ne_error _ _)

theorem located_or_pointsAtCycle_of_ofJson (failed : ofJson document = .error fault) :
    Located document fault ∨ PointsAtCycle document fault := by
  rw [ofJson_eq_readAll] at failed
  cases object : document.fields? with
  | none =>
    simp only [object] at failed
    cases failed
    exact .inl ⟨⟨document, Pointer.leadsTo_root document⟩, rfl⟩
  | some fields =>
    cases found : fields.lookup "definitions" with
    | none =>
      simp only [object, found] at failed
      exact located_or_pointsAtCycle object (.inl ⟨found, rfl⟩) failed
    | some value =>
      cases inner : value.fields? with
      | none =>
        simp only [object, found, inner] at failed
        cases failed
        have leads := (Pointer.leadsTo_root document).field object found
        exact .inl ⟨⟨value, leads⟩, rfl⟩
      | some definitions =>
        simp only [object, found, inner] at failed
        exact located_or_pointsAtCycle object (.inr ⟨value, found, inner⟩) failed

end Documents

/-- The pointer of a fault leads to a value of the document, whatever the document is. When the
fault is about a chain of references, that value is the definition that is named, and it lies on a
cycle of definitions that are references. -/
theorem find?_of_ofJson_fault (document : Json) (fault : Fault)
    (failed : ofJson document = .error fault) :
    (∃ value, fault.path.find? document = some value) ∧
      ∀ name, fault.cause = .cyclicRef name →
        ∃ definition, fault.path.find? document = some definition ∧
          Grammar.Defines document name definition ∧
          Relation.TransGen (Grammar.RefersTo document) name name := by
  rcases located_or_pointsAtCycle_of_ofJson failed with ⟨⟨value, leads⟩, direct⟩ | cyclic
  · refine ⟨⟨value, leads.find?⟩, fun name cause => ?_⟩
    rw [cause] at direct
    cases direct
  · obtain ⟨name, definition, rfl, leads, defines, cycle⟩ := cyclic
    refine ⟨⟨definition, leads.find?⟩, fun other cause => ?_⟩
    cases cause
    exact ⟨definition, leads.find?, defines, cycle⟩

/-- Two definitions that refer to each other, under names with characters that are escaped. -/
def mutualReferences : Json :=
  .object [
    ("ref", .string "~"),
    ("definitions", .object [
      ("~", .object [("ref", .string "a/b")]), ("a/b", .object [("ref", .string "~")])])]

theorem ofJson_mutualReferences :
    ofJson mutualReferences = .error ⟨.cyclicRef "a/b", ⟨"/definitions/a~1b"⟩⟩ :=
  eq_error_of_fault? (by decide +kernel)

theorem find?_mutualReferences :
    ofJson mutualReferences = .error ⟨.cyclicRef "a/b", ⟨"/definitions/a~1b"⟩⟩ ∧
      ∃ definition,
        Pointer.find? ⟨"/definitions/a~1b"⟩ mutualReferences = some definition ∧
          Grammar.Defines mutualReferences "a/b" definition ∧
          Relation.TransGen (Grammar.RefersTo mutualReferences) "a/b" "a/b" :=
  ⟨ofJson_mutualReferences,
    (find?_of_ofJson_fault mutualReferences _ ofJson_mutualReferences).2 "a/b" rfl⟩

end SchemaBindings.Schema
