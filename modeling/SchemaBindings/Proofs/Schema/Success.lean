import Mathlib.Data.List.Forall2
import SchemaBindings.Proofs.Outcome
import SchemaBindings.Schema.Reading

/-! When each part of a schema is read without a fault, and what is read then. The place that the
reading starts from never matters, it is only written into faults. -/

namespace SchemaBindings.Schema

open Keyed (keys)

@[simp] theorem wrongType_ne_ok {α : Type} (here : Pointer) (keyword : String)
    (expected : Expected) (a : α) : ¬ wrongType here keyword expected = .ok a := by
  simp [wrongType]

theorem checkKeywords_eq_ok (isRoot : Bool) (here : Pointer) (fields : List (String × Json)) :
    checkKeywords isRoot here fields = .ok () ↔
      ∀ key ∈ keys fields, key ∈ keywords ∧ (key = "definitions" → isRoot = true) := by
  induction fields with
  | nil => simp [checkKeywords, keys]
  | cons head rest ih =>
    obtain ⟨key, value⟩ := head
    simp only [checkKeywords, keys, List.map_cons, List.forall_mem_cons] at ih ⊢
    by_cases known : key ∈ keywords
    · by_cases nested : key = "definitions" ∧ isRoot = false
      · simp [nested, ite_eq_iff]
      · have root : key = "definitions" → isRoot = true := fun same => by
          simpa using fun other => nested ⟨same, other⟩
        have passes : (key == "definitions" && !isRoot) = false := by
          simpa [Bool.and_eq_false_iff] using fun same => root same
        rw [List.contains_iff_mem.2 known, passes]
        simpa [known, ih] using fun _ => root
    · simp [known]

theorem readFlag_eq_ok (here : Pointer) (fields : List (String × Json)) (keyword : String)
    (flag : Bool) :
    readFlag here fields keyword = .ok flag ↔
      (fields.lookup keyword = none ∧ flag = false) ∨
        fields.lookup keyword = some (.bool flag) := by
  cases found : fields.lookup keyword with
  | none => simp [readFlag, found, eq_comm]
  | some value => cases value <;> simp [readFlag, found, wrongType, eq_comm]

/-- The value of one key of a metadata object. -/
def IsMetadataEntry (entry : String × Json) : Prop :=
  (entry.1 = "description" → ∃ text, entry.2 = .string text) ∧
  (entry.1 = "enumDescription" → ∃ described, entry.2.fields? = some described ∧
    ∀ d ∈ described, ∃ text, d.2 = .string text)

def isExtension (key : String) : Bool := key != "description" && key != "enumDescription"

theorem readEnumDescriptions_succeeds (here : Pointer) (entries : List (String × Json)) :
    (∃ read, readEnumDescriptions here entries = .ok read) ↔
      ∀ d ∈ entries, ∃ text, d.2 = .string text := by
  induction entries with
  | nil => simp [readEnumDescriptions]
  | cons head rest ih =>
    obtain ⟨key, value⟩ := head
    cases value with
    | string text =>
      simp only [readEnumDescriptions, bind_eq_ok, pure_eq_ok, List.forall_mem_cons, ← ih]
      grind
    | _ => simp [readEnumDescriptions]

theorem readMetadataFields_cons_eq_ok (here : Pointer) (key : String) (value : Json)
    (rest : List (String × Json)) (metadata : Metadata) :
    readMetadataFields here ((key, value) :: rest) = .ok metadata ↔
      ∃ later, readMetadataFields here rest = .ok later ∧
        ((∃ text, key = "description" ∧ value = .string text ∧
            metadata = { later with description := some text }) ∨
          (∃ described texts, key = "enumDescription" ∧ value.fields? = some described ∧
            readEnumDescriptions (here.child key) described = .ok texts ∧
            metadata = { later with enumDescriptions := texts }) ∨
          (isExtension key = true ∧
            metadata = { later with extensions := (key, value) :: later.extensions })) := by
  by_cases description : key = "description"
  · subst description
    cases value with
    | string text =>
      simp only [readMetadataFields, beq_self_eq_true, if_true, bind_eq_ok, pure_eq_ok]
      simp [isExtension, eq_comm]
    | _ => simp [readMetadataFields, isExtension]
  · by_cases enumDescription : key = "enumDescription"
    · subst enumDescription
      cases object : value.fields? with
      | none => simp [readMetadataFields, isExtension, object]
      | some described =>
        have other : ("enumDescription" == "description") = false := by decide
        simp only [readMetadataFields, other, Bool.false_eq_true, if_false, beq_self_eq_true,
          if_true, object, bind_eq_ok, pure_eq_ok]
        constructor
        · rintro ⟨texts, each, later, read, rfl⟩
          exact ⟨later, read, .inr (.inl ⟨described, texts, trivial, rfl, each, rfl⟩)⟩
        · rintro ⟨later, read,
            ⟨_, impossible, -⟩ | ⟨_, texts, -, same, each, rfl⟩ | ⟨impossible, -⟩⟩
          · exact absurd impossible (by decide)
          · cases same
            exact ⟨texts, each, later, read, rfl⟩
          · exact absurd impossible (by decide)
    · have noDescription : (key == "description") = false := beq_false_of_ne description
      have noEnumDescription : (key == "enumDescription") = false :=
        beq_false_of_ne enumDescription
      simp only [readMetadataFields, noDescription, noEnumDescription, Bool.false_eq_true, if_false,
        bind_eq_ok, pure_eq_ok]
      constructor
      · rintro ⟨later, read, rfl⟩
        exact ⟨later, read, .inr (.inr ⟨by simp [isExtension, description, enumDescription], rfl⟩)⟩
      · rintro ⟨later, read, ⟨_, impossible, -⟩ | ⟨_, _, impossible, -⟩ | ⟨-, rfl⟩⟩
        · exact absurd impossible description
        · exact absurd impossible enumDescription
        · exact ⟨later, read, rfl⟩

theorem readMetadataFields_succeeds (here : Pointer) (entries : List (String × Json)) :
    (∃ metadata, readMetadataFields here entries = .ok metadata) ↔
      ∀ entry ∈ entries, IsMetadataEntry entry := by
  induction entries with
  | nil => simp [readMetadataFields]
  | cons head rest ih =>
    obtain ⟨key, value⟩ := head
    rw [List.forall_mem_cons, ← ih]
    simp only [readMetadataFields_cons_eq_ok]
    constructor
    · rintro ⟨metadata, later, read,
        ⟨text, rfl, rfl, -⟩ | ⟨described, texts, rfl, object, each, -⟩ | ⟨extension, -⟩⟩
      · exact ⟨by simp [IsMetadataEntry], later, read⟩
      · have all := (readEnumDescriptions_succeeds _ described).1 ⟨texts, each⟩
        exact ⟨⟨by simp, fun _ => ⟨described, object, all⟩⟩, later, read⟩
      · simp only [isExtension, Bool.and_eq_true, bne_iff_ne] at extension
        exact ⟨by simp [IsMetadataEntry, extension], later, read⟩
    · rintro ⟨⟨text, described⟩, later, read⟩
      by_cases description : key = "description"
      · obtain ⟨text, same⟩ := text description
        exact ⟨_, later, read, .inl ⟨text, description, same, rfl⟩⟩
      · by_cases enumDescription : key = "enumDescription"
        · obtain ⟨entries, object, all⟩ := described enumDescription
          obtain ⟨texts, each⟩ :=
            (readEnumDescriptions_succeeds (here.child key) entries).2 all
          exact ⟨_, later, read, .inr (.inl ⟨entries, texts, enumDescription, object, each, rfl⟩)⟩
        · have extension : isExtension key = true := by
            simp [isExtension, description, enumDescription]
          exact ⟨_, later, read, .inr (.inr ⟨extension, rfl⟩)⟩

theorem extensions_of_readMetadataFields {here : Pointer} {entries : List (String × Json)}
    {metadata : Metadata} (read : readMetadataFields here entries = .ok metadata) :
    metadata.extensions = entries.filter (fun entry => isExtension entry.1) := by
  induction entries generalizing metadata with
  | nil =>
    cases read
    rfl
  | cons head rest ih =>
    obtain ⟨key, value⟩ := head
    obtain ⟨later, read, known⟩ := (readMetadataFields_cons_eq_ok ..).1 read
    rw [List.filter_cons, ← ih read]
    rcases known with ⟨text, rfl, -, rfl⟩ | ⟨described, texts, rfl, -, -, rfl⟩ | ⟨extension, rfl⟩
    · rfl
    · rfl
    · rw [if_pos extension]

theorem readMetadata_eq_ok (here : Pointer) (fields : List (String × Json)) (metadata : Metadata) :
    readMetadata here fields = .ok metadata ↔
      (fields.lookup "metadata" = none ∧ metadata = .empty) ∨
        ∃ value entries, fields.lookup "metadata" = some value ∧ value.fields? = some entries ∧
          readMetadataFields (here.child "metadata") entries = .ok metadata := by
  cases found : fields.lookup "metadata" with
  | none => simp [readMetadata, found, eq_comm]
  | some value => cases object : value.fields? <;> simp [readMetadata, found, object]

theorem readRef_eq_ok (definitions : List String) (here : Pointer) (value : Json) (form : Form) :
    readRef definitions here value = .ok form ↔
      ∃ name ∈ definitions, value = .string name ∧ form = .ref name := by
  cases value with
  | string name => by_cases known : name ∈ definitions <;> simp [readRef, known, eq_comm]
  | _ => simp [readRef]

theorem readType_eq_ok (here : Pointer) (value : Json) (form : Form) :
    readType here value = .ok form ↔
      ∃ primitive : Primitive, value = .string primitive.keyword ∧ form = .type primitive := by
  cases value with
  | string keyword =>
    cases known : Primitive.ofKeyword? keyword with
    | none =>
      have unknown (primitive : Primitive) : keyword ≠ primitive.keyword := fun same => by
        simp [same, Primitive.ofKeyword?_keyword] at known
      simp [readType, known, unknown]
    | some primitive =>
      have same : primitive.keyword = keyword := by simpa using List.find?_some known
      subst same
      simp only [readType, known, Except.ok.injEq, Json.string.injEq]
      constructor
      · rintro rfl
        exact ⟨primitive, rfl, rfl⟩
      · rintro ⟨other, same, rfl⟩
        rw [same, Primitive.ofKeyword?_keyword] at known
        rw [Option.some.inj known]
  | _ => simp [readType]

theorem readEnumValues_eq_ok (here : Pointer) (index : Nat) (seen : List String)
    (items : List Json) (values : List String) :
    readEnumValues here index seen items = .ok values ↔
      items = values.map .string ∧ values.Nodup ∧ ∀ value ∈ values, value ∉ seen := by
  induction items generalizing index seen values with
  | nil => cases values <;> simp [readEnumValues]
  | cons item rest ih =>
    cases item with
    | string value =>
      by_cases repeated : value ∈ seen
      · cases values <;> simp [readEnumValues, repeated]
        grind
      · simp only [readEnumValues, List.contains_iff_mem, repeated, if_false, bind_eq_ok, ih,
          pure_eq_ok]
        cases values <;> simp
        grind
    | _ => cases values <;> simp [readEnumValues]

theorem readEnum_eq_ok (here : Pointer) (value : Json) (form : Form) :
    readEnum here value = .ok form ↔
      ∃ values : List String, values ≠ [] ∧ values.Nodup ∧ value = .array (values.map .string) ∧
        form = .enum values := by
  cases value with
  | array items =>
    cases items with
    | nil => simp [readEnum]
    | cons item rest =>
      simp only [readEnum, bind_eq_ok, readEnumValues_eq_ok, pure_eq_ok, Json.array.injEq]
      constructor
      · rintro ⟨values, ⟨items, distinct, -⟩, rfl⟩
        have nonempty : values ≠ [] := by
          rintro rfl
          cases items
        exact ⟨values, nonempty, distinct, items, rfl⟩
      · rintro ⟨values, -, distinct, items, rfl⟩
        exact ⟨values, ⟨items, distinct, by simp⟩, rfl⟩
  | _ => simp [readEnum]

theorem mem_presentGroups {fields : List (String × Json)} {group : FormGroup} :
    group ∈ presentGroups fields ↔ ∃ keyword ∈ group.keywords, keyword ∈ keys fields := by
  have listed : group ∈ FormGroup.all := by cases group <;> decide
  simp only [presentGroups, List.mem_filter, listed, List.any_eq_true, Keyed.has_iff_mem_keys,
    true_and]

theorem readNode_eq_ok (definitions : List String) (isRoot : Bool) (here : Pointer) (value : Json)
    (node : Node) :
    readNode definitions isRoot here value = .ok node ↔
      ∃ fields, value.fields? = some fields ∧ checkKeywords isRoot here fields = .ok () ∧
        readMetadata here fields = .ok node.metadata ∧
        readFlag here fields "nullable" = .ok node.nullable ∧
        readForm definitions here fields = .ok node.form := by
  cases value with
  | object members =>
    obtain ⟨form, nullable, metadata⟩ := node
    simp only [readNode, bind_eq_ok, pure_eq_ok, Json.fields?, Option.some.injEq, exists_eq_left',
      Node.form, Node.nullable, Node.metadata, Node.mk.injEq]
    grind
  | _ => simp [readNode, Json.fields?]

theorem readEntries_eq_ok (definitions : List String) (here : Pointer)
    (check : String → Pointer → Node → Except Fault Unit) (entries : List (String × Json))
    (nodes : List (String × Node)) :
    readEntries definitions here check entries = .ok nodes ↔
      List.Forall₂ (fun entry node => node.1 = entry.1 ∧
        readNode definitions false (here.child entry.1) entry.2 = .ok node.2 ∧
        check entry.1 (here.child entry.1) node.2 = .ok ()) entries nodes := by
  induction entries generalizing nodes with
  | nil => simp [readEntries, eq_comm]
  | cons head rest ih =>
    obtain ⟨name, value⟩ := head
    simp only [readEntries, bind_eq_ok, pure_eq_ok, ih, List.forall₂_cons_left_iff]
    constructor
    · rintro ⟨node, read, ⟨⟩, checked, later, all, rfl⟩
      exact ⟨(name, node), later, ⟨rfl, read, checked⟩, all, rfl⟩
    · rintro ⟨⟨_, node⟩, later, ⟨rfl, read, checked⟩, all, rfl⟩
      exact ⟨node, read, (), checked, later, all, rfl⟩

theorem readEntries_succeeds (definitions : List String) (here : Pointer)
    (check : String → Pointer → Node → Except Fault Unit) (entries : List (String × Json)) :
    (∃ nodes, readEntries definitions here check entries = .ok nodes) ↔
      ∀ entry ∈ entries, ∃ node,
        readNode definitions false (here.child entry.1) entry.2 = .ok node ∧
        check entry.1 (here.child entry.1) node = .ok () := by
  induction entries with
  | nil => simp [readEntries]
  | cons head rest ih =>
    rw [List.forall_mem_cons, ← ih]
    simp only [readEntries_eq_ok, List.forall₂_cons_left_iff]
    constructor
    · rintro ⟨_, node, later, ⟨-, read, checked⟩, all, -⟩
      exact ⟨⟨node.2, read, checked⟩, later, all⟩
    · rintro ⟨⟨node, read, checked⟩, later, all⟩
      exact ⟨(head.1, node) :: later, (head.1, node), later, ⟨rfl, read, checked⟩, all, rfl⟩

section Entries

variable {definitions : List String} {here : Pointer}
  {check : String → Pointer → Node → Except Fault Unit} {entries : List (String × Json)}
  {nodes : List (String × Node)}

theorem keys_readEntries (read : readEntries definitions here check entries = .ok nodes) :
    keys nodes = keys entries := by
  rw [readEntries_eq_ok] at read
  induction read with
  | nil => rfl
  | cons head _ ih =>
    simp only [keys, List.map_cons, head.1] at ih ⊢
    rw [ih]

theorem entry_of_readEntries (read : readEntries definitions here check entries = .ok nodes)
    {name : String} {node : Node} (member : (name, node) ∈ nodes) :
    ∃ value, (name, value) ∈ entries ∧
      readNode definitions false (here.child name) value = .ok node ∧
      check name (here.child name) node = .ok () := by
  rw [readEntries_eq_ok] at read
  induction read with
  | nil => cases member
  | @cons entry first _ _ head _ ih =>
    rcases List.mem_cons.1 member with same | member
    · subst same
      obtain ⟨_, value⟩ := entry
      obtain ⟨rfl, found⟩ := head
      exact ⟨value, List.mem_cons_self, found⟩
    · obtain ⟨value, inside, found⟩ := ih member
      exact ⟨value, List.mem_cons_of_mem _ inside, found⟩

theorem node_of_readEntries (read : readEntries definitions here check entries = .ok nodes)
    {name : String} {value : Json} (member : (name, value) ∈ entries) :
    ∃ node, (name, node) ∈ nodes ∧ readNode definitions false (here.child name) value = .ok node ∧
      check name (here.child name) node = .ok () := by
  rw [readEntries_eq_ok] at read
  induction read with
  | nil => cases member
  | @cons _ first _ _ head _ ih =>
    rcases List.mem_cons.1 member with same | member
    · subst same
      obtain ⟨_, node⟩ := first
      obtain ⟨rfl, found⟩ := head
      exact ⟨node, List.mem_cons_self, found⟩
    · obtain ⟨node, inside, found⟩ := ih member
      exact ⟨node, List.mem_cons_of_mem _ inside, found⟩

end Entries

/-- Reading goes by the meaning of the value that the keyword has. -/
theorem readNodes_eq (definitions : List String) (here : Pointer) (fields : List (String × Json))
    (keyword : String) :
    readNodes definitions here fields keyword =
      match fields.lookup keyword with
      | none => .ok []
      | some value =>
        match value.fields? with
        | some entries =>
          readEntries definitions (here.child keyword) (fun _ _ _ => .ok ()) entries
        | none => wrongType (here.child keyword) keyword .object := by
  unfold readNodes
  split
  · rename_i absent
    simp only [absent]
  · rename_i members present
    simp only [present, Json.fields?]
  · rename_i value other present
    have noObject : value.fields? = none := by
      cases value with
      | object members => exact (other members rfl).elim
      | _ => rfl
    simp only [present, noObject]

theorem readNodes_eq_ok (definitions : List String) (here : Pointer)
    (fields : List (String × Json)) (keyword : String) (nodes : List (String × Node)) :
    readNodes definitions here fields keyword = .ok nodes ↔
      (fields.lookup keyword = none ∧ nodes = []) ∨
        ∃ value entries, fields.lookup keyword = some value ∧ value.fields? = some entries ∧
          readEntries definitions (here.child keyword) (fun _ _ _ => .ok ()) entries =
            .ok nodes := by
  rw [readNodes_eq]
  cases found : fields.lookup keyword with
  | none => simp [eq_comm]
  | some value => cases object : value.fields? <;> simp [object]

theorem readNode_of_mem_readNodes {definitions : List String} {here : Pointer}
    {fields : List (String × Json)} {keyword : String} {nodes : List (String × Node)}
    (read : readNodes definitions here fields keyword = .ok nodes) {name : String} {node : Node}
    (member : (name, node) ∈ nodes) :
    ∃ place value, readNode definitions false place value = .ok node := by
  rcases (readNodes_eq_ok ..).1 read with ⟨-, rfl⟩ | ⟨_, entries, -, -, read⟩
  · cases member
  · obtain ⟨value, -, read, -⟩ := entry_of_readEntries read member
    exact ⟨_, value, read⟩

theorem checkVariant_eq_ok (tag tagValue : String) (here : Pointer) (node : Node) :
    checkVariant tag tagValue here node = .ok () ↔
      ∃ required optional additional, node.form = .properties required optional additional ∧
        node.nullable = false ∧ tag ∉ keys required ∧ tag ∉ keys optional := by
  obtain ⟨form, nullable, metadata⟩ := node
  cases form with
  | properties required optional additional =>
    cases nullable with
    | true => simp [checkVariant, Node.form, Node.nullable]
    | false =>
      simp only [checkVariant, Node.form, Node.nullable, Keyed.has_iff_mem_keys, ite_eq_iff]
      simp
  | _ => simp [checkVariant, Node.form]

/-- How the form of a node follows from the one group of keywords among its fields. -/
inductive FormRead (definitions : List String) (here : Pointer) (fields : List (String × Json)) :
    Form → Prop
  | empty (present : presentGroups fields = []) : FormRead definitions here fields .empty
  | ref {name : String} (present : presentGroups fields = [.ref])
      (found : fields.lookup "ref" = some (.string name)) (defined : name ∈ definitions) :
      FormRead definitions here fields (.ref name)
  | type {primitive : Primitive} (present : presentGroups fields = [.type])
      (found : fields.lookup "type" = some (.string primitive.keyword)) :
      FormRead definitions here fields (.type primitive)
  | enum {values : List String} (present : presentGroups fields = [.enum])
      (found : fields.lookup "enum" = some (.array (values.map .string)))
      (nonempty : values ≠ []) (distinct : values.Nodup) :
      FormRead definitions here fields (.enum values)
  | elements {value : Json} {item : Node} (present : presentGroups fields = [.elements])
      (found : fields.lookup "elements" = some value)
      (read : readNode definitions false (here.child "elements") value = .ok item) :
      FormRead definitions here fields (.elements item)
  | values {value : Json} {item : Node} (present : presentGroups fields = [.values])
      (found : fields.lookup "values" = some value)
      (read : readNode definitions false (here.child "values") value = .ok item) :
      FormRead definitions here fields (.values item)
  | properties {required optional : List (String × Node)} {additional : Bool}
      (present : presentGroups fields = [.properties])
      (some : "properties" ∈ keys fields ∨ "optionalProperties" ∈ keys fields)
      (requiredRead : readNodes definitions here fields "properties" = .ok required)
      (optionalRead : readNodes definitions here fields "optionalProperties" = .ok optional)
      (disjoint : ∀ name ∈ keys optional, name ∉ keys required)
      (additionalRead : readFlag here fields "additionalProperties" = .ok additional) :
      FormRead definitions here fields (.properties required optional additional)
  | discriminator {tag : String} {value : Json} {entries : List (String × Json)}
      {mapping : List (String × Node)}
      (present : presentGroups fields = [.discriminator])
      (tagFound : fields.lookup "discriminator" = some (.string tag))
      (found : fields.lookup "mapping" = some value)
      (object : value.fields? = some entries) (nonempty : entries ≠ [])
      (read : readEntries definitions (here.child "mapping") (checkVariant tag) entries =
        .ok mapping) :
      FormRead definitions here fields (.discriminator tag mapping)

/-- A group is present by one of its keywords. -/
theorem keyword_of_present {fields : List (String × Json)} {group : FormGroup}
    (present : presentGroups fields = [group]) : ∃ keyword ∈ group.keywords, keyword ∈ keys fields :=
  mem_presentGroups.1 (present ▸ List.mem_singleton_self _)

theorem keyword_of_properties {fields : List (String × Json)}
    (present : presentGroups fields = [.properties]) :
    "properties" ∈ keys fields ∨ "optionalProperties" ∈ keys fields ∨
      "additionalProperties" ∈ keys fields := by
  simpa [FormGroup.keywords] using keyword_of_present present

theorem keyword_of_discriminator {fields : List (String × Json)}
    (present : presentGroups fields = [.discriminator]) :
    "discriminator" ∈ keys fields ∨ "mapping" ∈ keys fields := by
  simpa [FormGroup.keywords] using keyword_of_present present

theorem lookup_of_present {fields : List (String × Json)} {group : FormGroup}
    (present : presentGroups fields = [group]) (only : group.keywords = [group.name]) :
    ∃ value, fields.lookup group.name = some value := by
  obtain ⟨keyword, mine, key⟩ := keyword_of_present present
  rw [only, List.mem_singleton] at mine
  exact Keyed.mem_keys_iff_lookup.1 (mine ▸ key)

theorem lookup_of_absent {fields : List (String × Json)} (group : FormGroup) (keyword : String)
    (mine : keyword ∈ group.keywords) (absent : group ∉ presentGroups fields) :
    fields.lookup keyword = none :=
  Keyed.lookup_eq_none_iff_keys.2 fun member => absent (mem_presentGroups.2 ⟨keyword, mine, member⟩)

theorem present_of_lookup {fields : List (String × Json)} {group : FormGroup} {keyword : String}
    {value : Json} (single : (presentGroups fields).length ≤ 1) (mine : keyword ∈ group.keywords)
    (found : fields.lookup keyword = some value) : presentGroups fields = [group] := by
  have member : group ∈ presentGroups fields :=
    mem_presentGroups.2 ⟨keyword, mine, Keyed.mem_keys_iff_lookup.2 ⟨value, found⟩⟩
  match present : presentGroups fields with
  | [] => simp [present] at member
  | [other] =>
    rw [present, List.mem_singleton] at member
    rw [member]
  | _ :: _ :: _ => simp [present] at single

section Forms

variable {definitions : List String} {here : Pointer} {fields : List (String × Json)}

theorem readForm_empty (present : presentGroups fields = []) :
    readForm definitions here fields = .ok .empty := by
  have absent (group : FormGroup) (keyword : String) (mine : keyword ∈ group.keywords) :=
    lookup_of_absent group keyword mine (present ▸ List.not_mem_nil)
  rw [readForm]
  simp only [present, absent .ref "ref" (by decide), absent .type "type" (by decide),
    absent .enum "enum" (by decide)]
  rw [if_neg (by simp)]
  split
  · rename_i item found
    cases (absent .elements "elements" (by decide)).symm.trans found
  split
  · rename_i item found
    cases (absent .values "values" (by decide)).symm.trans found
  rfl

theorem lookup_of_other {group : FormGroup} (present : presentGroups fields = [group])
    (other : FormGroup) (keyword : String) (mine : keyword ∈ other.keywords)
    (different : other ≠ group) : fields.lookup keyword = none :=
  lookup_of_absent other keyword mine (by simp [present, different])

theorem readForm_ref {value : Json} (present : presentGroups fields = [.ref])
    (found : fields.lookup "ref" = some value) :
    readForm definitions here fields = readRef definitions (here.child "ref") value := by
  rw [readForm]
  simp only [present, found]
  rfl

theorem readForm_type {value : Json} (present : presentGroups fields = [.type])
    (found : fields.lookup "type" = some value) :
    readForm definitions here fields = readType (here.child "type") value := by
  have noRef := lookup_of_other present .ref "ref" (by decide) (by decide)
  rw [readForm]
  simp only [present, noRef, found]
  rfl

theorem readForm_enum {value : Json} (present : presentGroups fields = [.enum])
    (found : fields.lookup "enum" = some value) :
    readForm definitions here fields = readEnum (here.child "enum") value := by
  have noRef := lookup_of_other present .ref "ref" (by decide) (by decide)
  have noType := lookup_of_other present .type "type" (by decide) (by decide)
  rw [readForm]
  simp only [present, noRef, noType, found]
  rfl

theorem readForm_elements {value : Json} (present : presentGroups fields = [.elements])
    (found : fields.lookup "elements" = some value) :
    readForm definitions here fields =
      (do return .elements (← readNode definitions false (here.child "elements") value)) := by
  have noRef := lookup_of_other present .ref "ref" (by decide) (by decide)
  have noType := lookup_of_other present .type "type" (by decide) (by decide)
  have noEnum := lookup_of_other present .enum "enum" (by decide) (by decide)
  rw [readForm]
  simp only [present, noRef, noType, noEnum]
  rw [if_neg (by simp)]
  split
  · rename_i item same
    cases found.symm.trans same
    rfl
  · rename_i absent
    cases found.symm.trans absent

theorem readForm_values {value : Json} (present : presentGroups fields = [.values])
    (found : fields.lookup "values" = some value) :
    readForm definitions here fields =
      (do return .values (← readNode definitions false (here.child "values") value)) := by
  have noRef := lookup_of_other present .ref "ref" (by decide) (by decide)
  have noType := lookup_of_other present .type "type" (by decide) (by decide)
  have noEnum := lookup_of_other present .enum "enum" (by decide) (by decide)
  have noElements := lookup_of_other present .elements "elements" (by decide) (by decide)
  rw [readForm]
  simp only [present, noRef, noType, noEnum]
  rw [if_neg (by simp)]
  split
  · rename_i item same
    cases noElements.symm.trans same
  split
  · rename_i item same
    cases found.symm.trans same
    rfl
  · rename_i absent
    cases found.symm.trans absent

theorem find_overlap_eq_none {required optional : List (String × Node)} :
    optional.find? (fun entry => Keyed.has required entry.1) = none ↔
      ∀ name ∈ keys optional, name ∉ keys required := by
  simp only [List.find?_eq_none, Keyed.has_iff_mem_keys, keys, List.forall_mem_map]

/-- How a node with properties is read, when no other group of keywords is present. -/
theorem readForm_of_properties (present : presentGroups fields = [.properties]) :
    readForm definitions here fields =
      if !Keyed.has fields "properties" && !Keyed.has fields "optionalProperties" then
        .error ⟨.incompleteForm "additionalProperties" "properties",
          here.child "additionalProperties"⟩
      else do
        let required ← readNodes definitions here fields "properties"
        let optional ← readNodes definitions here fields "optionalProperties"
        match optional.find? (fun entry => Keyed.has required entry.1) with
        | some (name, _) =>
          .error ⟨.overlappingProperties name, here.descend ["optionalProperties", name]⟩
        | none =>
          let additional ← readFlag here fields "additionalProperties"
          return .properties required optional additional := by
  have noRef := lookup_of_other present .ref "ref" (by decide) (by decide)
  have noType := lookup_of_other present .type "type" (by decide) (by decide)
  have noEnum := lookup_of_other present .enum "enum" (by decide) (by decide)
  have noElements := lookup_of_other present .elements "elements" (by decide) (by decide)
  have noValues := lookup_of_other present .values "values" (by decide) (by decide)
  rw [readForm]
  simp only [present, noRef, noType, noEnum]
  rw [if_neg (by simp)]
  split
  · rename_i item same
    cases noElements.symm.trans same
  split
  · rename_i item same
    cases noValues.symm.trans same
  exact if_pos (by decide)

theorem readForm_properties (form : Form) (present : presentGroups fields = [.properties]) :
    readForm definitions here fields = .ok form ↔
      ("properties" ∈ keys fields ∨ "optionalProperties" ∈ keys fields) ∧
        ∃ required optional additional,
          readNodes definitions here fields "properties" = .ok required ∧
          readNodes definitions here fields "optionalProperties" = .ok optional ∧
          (∀ name ∈ keys optional, name ∉ keys required) ∧
          readFlag here fields "additionalProperties" = .ok additional ∧
          form = .properties required optional additional := by
  rw [readForm_of_properties present]
  by_cases some : "properties" ∈ keys fields ∨ "optionalProperties" ∈ keys fields
  · rw [if_neg (by
      simpa only [Bool.and_eq_true, Bool.not_eq_true', Bool.eq_false_iff, ne_eq,
        Keyed.has_iff_mem_keys, not_and_or, not_not] using some)]
    simp only [bind_eq_ok, some, true_and]
    constructor
    · rintro ⟨required, requiredRead, optional, optionalRead, read⟩
      split at read
      · cases read
      · rename_i none
        obtain ⟨additional, additionalRead, same⟩ := (bind_eq_ok ..).1 read
        cases same
        exact ⟨required, optional, additional, requiredRead, optionalRead,
          find_overlap_eq_none.1 none, additionalRead, rfl⟩
    · rintro ⟨required, optional, additional, requiredRead, optionalRead, disjoint, read, rfl⟩
      refine ⟨required, requiredRead, optional, optionalRead, ?_⟩
      rw [find_overlap_eq_none.2 disjoint]
      exact (bind_eq_ok ..).2 ⟨additional, read, rfl⟩
  · rw [if_pos (by
      simpa only [Bool.and_eq_true, Bool.not_eq_true', Bool.eq_false_iff, ne_eq,
        Keyed.has_iff_mem_keys, not_or] using some)]
    simp [some]

/-- How a union is read, when no other group of keywords is present. -/
theorem readForm_of_discriminator (present : presentGroups fields = [.discriminator]) :
    readForm definitions here fields =
      match fields.lookup "discriminator", fields.lookup "mapping" with
      | none, _ => .error ⟨.incompleteForm "mapping" "discriminator", here.child "mapping"⟩
      | _, none =>
        .error ⟨.incompleteForm "discriminator" "mapping", here.child "discriminator"⟩
      | some (.string tag), some (.object members) =>
        if members.isEmpty then .error ⟨.emptyMapping, here.child "mapping"⟩
        else do
          let mapping ← readEntries definitions (here.child "mapping") (checkVariant tag)
            (Keyed.ofList members)
          return .discriminator tag mapping
      | some (.string _), some _ => wrongType (here.child "mapping") "mapping" .object
      | some _, some _ => wrongType (here.child "discriminator") "discriminator" .string := by
  have noRef := lookup_of_other present .ref "ref" (by decide) (by decide)
  have noType := lookup_of_other present .type "type" (by decide) (by decide)
  have noEnum := lookup_of_other present .enum "enum" (by decide) (by decide)
  have noElements := lookup_of_other present .elements "elements" (by decide) (by decide)
  have noValues := lookup_of_other present .values "values" (by decide) (by decide)
  rw [readForm]
  simp only [present, noRef, noType, noEnum]
  rw [if_neg (by simp)]
  split
  · rename_i item same
    cases noElements.symm.trans same
  split
  · rename_i item same
    cases noValues.symm.trans same
  rw [if_neg (by decide), if_pos (by decide)]
  split <;> simp only [*]

theorem readForm_discriminator (form : Form) (present : presentGroups fields = [.discriminator]) :
    readForm definitions here fields = .ok form ↔
      ∃ tag value entries mapping, fields.lookup "discriminator" = some (.string tag) ∧
        fields.lookup "mapping" = some value ∧ value.fields? = some entries ∧ entries ≠ [] ∧
        readEntries definitions (here.child "mapping") (checkVariant tag) entries = .ok mapping ∧
        form = .discriminator tag mapping := by
  rw [readForm_of_discriminator present]
  split
  · rename_i absent
    simp only [absent]
    simp
  · rename_i absent _
    simp only [absent]
    simp
  · rename_i tag members tagFound found
    simp only [tagFound, found, Option.some.injEq, Json.string.injEq, exists_and_left,
      exists_eq_left', Json.fields?]
    by_cases empty : members = []
    · simp [empty, Keyed.ofList]
    · rw [if_neg (by simpa using empty)]
      simp only [bind_eq_ok, pure_eq_ok, ne_eq, Keyed.ofList_eq_nil, empty, not_false_eq_true,
        true_and]
      exact exists_congr fun mapping => and_congr_right fun _ => eq_comm
  · rename_i value noObject _ found
    have noFields : value.fields? = none := by
      cases value with
      | object members => exact (noObject members rfl).elim
      | _ => rfl
    simp [found, noFields]
  · rename_i tag value _ noText tagFound found
    simp only [tagFound, wrongType_ne_ok, Option.some.injEq, false_iff, not_exists, not_and]
    intro text _ _ _ same
    exact (noText text same).elim

theorem readForm_eq_ok (form : Form) :
    readForm definitions here fields = .ok form ↔ FormRead definitions here fields form := by
  constructor
  · intro read
    match present : presentGroups fields with
    | [] =>
      cases (readForm_empty present).symm.trans read
      exact .empty present
    | [.ref] =>
      obtain ⟨value, found⟩ := lookup_of_present present rfl
      rw [readForm_ref present found] at read
      obtain ⟨name, defined, rfl, rfl⟩ := (readRef_eq_ok ..).1 read
      exact .ref present found defined
    | [.type] =>
      obtain ⟨value, found⟩ := lookup_of_present present rfl
      rw [readForm_type present found] at read
      obtain ⟨primitive, rfl, rfl⟩ := (readType_eq_ok ..).1 read
      exact .type present found
    | [.enum] =>
      obtain ⟨value, found⟩ := lookup_of_present present rfl
      rw [readForm_enum present found] at read
      obtain ⟨values, nonempty, distinct, rfl, rfl⟩ := (readEnum_eq_ok ..).1 read
      exact .enum present found nonempty distinct
    | [.elements] =>
      obtain ⟨value, found⟩ := lookup_of_present present rfl
      rw [readForm_elements present found, bind_eq_ok] at read
      obtain ⟨item, read, same⟩ := read
      cases same
      exact .elements present found read
    | [.values] =>
      obtain ⟨value, found⟩ := lookup_of_present present rfl
      rw [readForm_values present found, bind_eq_ok] at read
      obtain ⟨item, read, same⟩ := read
      cases same
      exact .values present found read
    | [.properties] =>
      obtain ⟨some, required, optional, additional, requiredRead, optionalRead, disjoint,
        additionalRead, rfl⟩ := (readForm_properties form present).1 read
      exact .properties present some requiredRead optionalRead disjoint additionalRead
    | [.discriminator] =>
      obtain ⟨tag, value, entries, mapping, tagFound, found, object, nonempty, entriesRead, rfl⟩ :=
        (readForm_discriminator form present).1 read
      exact .discriminator present tagFound found object nonempty entriesRead
    | _ :: _ :: _ =>
      rw [readForm, present, if_pos (by simp)] at read
      cases read
  · intro read
    cases read with
    | empty present => exact readForm_empty present
    | ref present found defined =>
      exact (readForm_ref present found).trans ((readRef_eq_ok ..).2 ⟨_, defined, rfl, rfl⟩)
    | type present found =>
      exact (readForm_type present found).trans ((readType_eq_ok ..).2 ⟨_, rfl, rfl⟩)
    | enum present found nonempty distinct =>
      exact (readForm_enum present found).trans
        ((readEnum_eq_ok ..).2 ⟨_, nonempty, distinct, rfl, rfl⟩)
    | elements present found read =>
      exact (readForm_elements present found).trans ((bind_eq_ok ..).2 ⟨_, read, rfl⟩)
    | values present found read =>
      exact (readForm_values present found).trans ((bind_eq_ok ..).2 ⟨_, read, rfl⟩)
    | properties present some requiredRead optionalRead disjoint additionalRead =>
      exact (readForm_properties _ present).2
        ⟨some, _, _, _, requiredRead, optionalRead, disjoint, additionalRead, rfl⟩
    | discriminator present tagFound found object nonempty read =>
      exact (readForm_discriminator _ present).2
        ⟨_, _, _, _, tagFound, found, object, nonempty, read, rfl⟩

theorem FormRead.single {form : Form} (read : FormRead definitions here fields form) :
    (presentGroups fields).length ≤ 1 := by
  cases read <;> simp [*]

end Forms

theorem readNode_primitive (definitions : List String) (here : Pointer) (p : Primitive) :
    readNode definitions false here (.object [("type", .string p.keyword)]) =
      .ok ⟨.type p, false, .empty⟩ :=
  (readNode_eq_ok ..).2 ⟨_, rfl, by rfl, by rfl, by rfl,
    (readForm_eq_ok _).2 (.type (by rfl) (by rfl))⟩

/-- A record is read by reading its members. -/
theorem readNode_record {definitions : List String} (isRoot : Bool) {here : Pointer}
    {members : List (String × Json)} {nodes : List (String × Node)}
    (read : List.Forall₂ (fun entry node => node.1 = entry.1 ∧
      readNode definitions false ((here.child "properties").child entry.1) entry.2 = .ok node.2)
      (Keyed.ofList members) nodes) :
    readNode definitions isRoot here (.object [("properties", .object members)]) =
      .ok ⟨.properties nodes [] false, false, .empty⟩ := by
  have entries : readEntries definitions (here.child "properties") (fun _ _ _ => .ok ())
      (Keyed.ofList members) = .ok nodes :=
    (readEntries_eq_ok ..).2 (read.imp fun _ _ own => ⟨own.1, own.2, rfl⟩)
  refine (readNode_eq_ok ..).2 ⟨_, rfl, by cases isRoot <;> rfl, by rfl, by rfl,
    (readForm_eq_ok _).2 (.properties (by rfl) (.inl List.mem_cons_self) ?_ ?_ nofun (by rfl))⟩
  · exact (readNodes_eq_ok ..).2 (.inr ⟨_, _, by rfl, rfl, entries⟩)
  · exact (readNodes_eq_ok ..).2 (.inl ⟨by rfl, rfl⟩)
/-- Reading the root and the definitions, once it is known what is defined. -/
def readAll (document : Json) (definitions : List (String × Json)) : Except Fault Schema := do
  let root ← readNode (keys definitions) true .root document
  let nodes ← readEntries (keys definitions) (Pointer.root.child "definitions")
    (fun _ _ _ => .ok ()) definitions
  checkRefChains nodes
  return ⟨root, nodes⟩

theorem ofJson_eq_readAll (document : Json) :
    ofJson document =
      match document.fields? with
      | none => .error ⟨.notAnObject, .root⟩
      | some fields =>
        match fields.lookup "definitions" with
        | none => readAll document []
        | some value =>
          match value.fields? with
          | some entries => readAll document entries
          | none => wrongType (Pointer.root.child "definitions") "definitions" .object := by
  rw [ofJson]
  cases document.fields? with
  | none => rfl
  | some fields =>
    cases fields.lookup "definitions" with
    | none => rfl
    | some value =>
      simp only
      cases value.fields? <;> rfl

theorem readAll_eq_ok (document : Json) (definitions : List (String × Json)) (schema : Schema) :
    readAll document definitions = .ok schema ↔
      readNode (keys definitions) true .root document = .ok schema.root ∧
        readEntries (keys definitions) (Pointer.root.child "definitions") (fun _ _ _ => .ok ())
          definitions = .ok schema.definitions ∧
        checkRefChains schema.definitions = .ok () := by
  obtain ⟨root, nodes⟩ := schema
  simp only [readAll, bind_eq_ok, pure_eq_ok, Schema.mk.injEq]
  constructor
  · rintro ⟨_, rootRead, _, read, _, checked, rfl, rfl⟩
    exact ⟨rootRead, read, checked⟩
  · rintro ⟨rootRead, read, checked⟩
    exact ⟨root, rootRead, nodes, read, (), checked, rfl, rfl⟩

/-- The definitions of a document are its own entries under the keyword, or none. -/
theorem ofJson_eq_ok (document : Json) (schema : Schema) :
    ofJson document = .ok schema ↔
      ∃ fields definitions, document.fields? = some fields ∧
        ((fields.lookup "definitions" = none ∧ definitions = []) ∨
          ∃ value, fields.lookup "definitions" = some value ∧ value.fields? = some definitions) ∧
        readNode (keys definitions) true .root document = .ok schema.root ∧
        readEntries (keys definitions) (Pointer.root.child "definitions") (fun _ _ _ => .ok ())
          definitions = .ok schema.definitions ∧
        checkRefChains schema.definitions = .ok () := by
  simp only [← readAll_eq_ok, ofJson_eq_readAll]
  cases object : document.fields? with
  | none => simp
  | some fields =>
    cases found : fields.lookup "definitions" with
    | none =>
      simp only [found]
      refine ⟨fun read => ⟨fields, [], rfl, .inl ⟨found, rfl⟩, read⟩, ?_⟩
      rintro ⟨_, definitions, ⟨⟩, ⟨-, rfl⟩ | ⟨value, other, -⟩, read⟩
      · exact read
      · cases found.symm.trans other
    | some value =>
      simp only [found]
      cases inner : value.fields? with
      | none =>
        simp only [wrongType_ne_ok, false_iff]
        rintro ⟨_, definitions, ⟨⟩, ⟨none, -⟩ | ⟨_, same, object⟩, read⟩
        · cases found.symm.trans none
        · cases found.symm.trans same
          cases inner.symm.trans object
      | some definitions =>
        refine ⟨fun read => ⟨fields, definitions, rfl, .inr ⟨value, found, inner⟩, read⟩, ?_⟩
        rintro ⟨_, definitions, ⟨⟩, ⟨none, -⟩ | ⟨_, same, object⟩, read⟩
        · cases found.symm.trans none
        · cases found.symm.trans same
          cases inner.symm.trans object
          exact read

/-- A document that defines nothing is read as its root. -/
theorem ofJson_of_readNode {document : Json} {fields : List (String × Json)} {root : Node}
    (object : document.fields? = some fields) (nothing : fields.lookup "definitions" = none)
    (read : readNode [] true .root document = .ok root) : ofJson document = .ok ⟨root, []⟩ :=
  (ofJson_eq_ok ..).2 ⟨fields, [], object, .inl ⟨nothing, rfl⟩, read, (readEntries_eq_ok ..).2 .nil,
    by rfl⟩

end SchemaBindings.Schema
