import SchemaBindings.Proofs.Keyed
import SchemaBindings.Proofs.Schema.Regular

/-! Schemas as documents. Each node is written with the keywords of its form, what it carries goes
into a metadata object, and the definitions go into the root. Reading such a document gives the
schema back exactly when it is one that a document can describe. -/

namespace SchemaBindings

open Keyed (keys mapValues Increasing)

/-- The description is written when there is one. The other members keep their keys. -/
def Metadata.members (m : Metadata) : List (String × Json) :=
  (m.description.map fun text => ("description", Json.string text)).toList ++
    ("enumDescription", .object (mapValues .string m.enumDescriptions)) :: m.extensions

mutual
def Node.members : Node → List (String × Json)
  | .mk form nullable metadata =>
    form.members ++ (if nullable then [("nullable", .bool true)] else []) ++
      [("metadata", .object metadata.members)]

def Form.members : Form → List (String × Json)
  | .empty => []
  | .ref definition => [("ref", .string definition)]
  | .type primitive => [("type", .string primitive.keyword)]
  | .enum values => [("enum", .array (values.map .string))]
  | .elements item => [("elements", .object item.members)]
  | .properties required optional additional =>
    [("properties", .object (entryMembers required)),
      ("optionalProperties", .object (entryMembers optional))] ++
      (if additional then [("additionalProperties", .bool true)] else [])
  | .values item => [("values", .object item.members)]
  | .discriminator tag mapping =>
    [("discriminator", .string tag), ("mapping", .object (entryMembers mapping))]

def entryMembers : List (String × Node) → List (String × Json)
  | [] => []
  | (name, node) :: rest => (name, .object node.members) :: entryMembers rest
end

def Node.toJson (node : Node) : Json := .object node.members

def Schema.members (schema : Schema) : List (String × Json) :=
  ("definitions", .object (entryMembers schema.definitions)) :: schema.root.members

def Schema.toJson (schema : Schema) : Json := .object schema.members

theorem entryMembers_eq_mapValues (entries : List (String × Node)) :
    entryMembers entries = mapValues Node.toJson entries := by
  induction entries with
  | nil => rfl
  | cons entry rest ih =>
    rw [entryMembers, ih]
    rfl

namespace Schema

open Relation (TransGen)

/-- Whatever a node keeps by name is in key order, as in a map. -/
structure OrderedNode (node : Node) : Prop where
  properties : ∀ required optional additional,
    node.form = .properties required optional additional → Increasing required ∧ Increasing optional
  mapping : ∀ tag mapping, node.form = .discriminator tag mapping → Increasing mapping
  enumDescriptions : Increasing node.metadata.enumDescriptions
  extensions : Increasing node.metadata.extensions

/-- What a schema is promised to be. -/
structure WellFormed (schema : Schema) : Prop where
  definitions : Increasing schema.definitions
  ordered : ∀ node, Contains schema node → OrderedNode node
  ref : ∀ node, Contains schema node →
    ∀ target, node.form = .ref target → target ∈ keys schema.definitions
  enum : ∀ node, Contains schema node →
    ∀ values, node.form = .enum values → values ≠ [] ∧ values.Nodup
  properties : ∀ node, Contains schema node →
    ∀ required optional additional, node.form = .properties required optional additional →
      ∀ name ∈ keys required, name ∉ keys optional
  discriminator : ∀ node, Contains schema node →
    ∀ tag mapping, node.form = .discriminator tag mapping → mapping ≠ [] ∧
      ∀ entry ∈ mapping, entry.2.nullable = false ∧ ∃ required optional additional,
        entry.2.form = .properties required optional additional ∧
        tag ∉ keys required ∧ tag ∉ keys optional
  extensions : ∀ node, Contains schema node →
    "description" ∉ keys node.metadata.extensions ∧
      "enumDescription" ∉ keys node.metadata.extensions
  acyclic : ∀ name, ¬ TransGen (RefersTo schema.definitions) name name

section Members

variable {members : List (String × Json)}

/-- Sorting members with distinct keys changes no lookup. -/
theorem lookup_ofList (distinct : (keys members).Nodup) (key : String) :
    (Keyed.ofList members).lookup key = members.lookup key := by
  have same := Keyed.perm_ofList distinct
  cases found : members.lookup key with
  | none =>
    rw [Keyed.lookup_eq_none_iff_keys] at found ⊢
    exact fun member => found ((Keyed.perm_keys same).mem_iff.1 member)
  | some value =>
    exact Keyed.lookup_of_mem (Keyed.increasing_ofList members)
      (same.mem_iff.2 (Keyed.mem_of_lookup found))

theorem presentGroups_congr {fields others : List (String × Json)}
    (same : ∀ group ∈ FormGroup.all, ∀ keyword ∈ group.keywords,
      keyword ∈ keys fields ↔ keyword ∈ keys others) :
    presentGroups fields = presentGroups others := by
  refine List.filter_congr fun group listed => ?_
  rw [Bool.eq_iff_iff, List.any_eq_true, List.any_eq_true]
  exact exists_congr fun keyword => and_congr_right fun mine => by
    rw [Keyed.has_iff_mem_keys, Keyed.has_iff_mem_keys, same group listed keyword mine]

end Members

section Metadata

variable {here : Pointer} {entries : List (String × Json)} {metadata : Metadata}

theorem readEnumDescriptions_eq_ok (here : Pointer) (entries : List (String × Json))
    (texts : List (String × String)) :
    readEnumDescriptions here entries = .ok texts ↔ entries = mapValues .string texts := by
  induction entries generalizing texts with
  | nil => cases texts <;> simp [readEnumDescriptions]
  | cons entry rest ih =>
    obtain ⟨name, value⟩ := entry
    cases value with
    | string text =>
      simp only [readEnumDescriptions, bind_eq_ok, pure_eq_ok, ih]
      cases texts with
      | nil => simp
      | cons first later =>
        obtain ⟨name', text'⟩ := first
        simp only [mapValues, List.map_cons, List.cons.injEq, Prod.mk.injEq, Json.string.injEq]
        grind
    | _ => cases texts <;> simp [readEnumDescriptions]

theorem description_of_readMetadataFields (read : readMetadataFields here entries = .ok metadata)
    (text : String) :
    metadata.description = some text ↔ entries.lookup "description" = some (.string text) := by
  induction entries generalizing metadata with
  | nil =>
    cases read
    simp [Metadata.empty]
  | cons head rest ih =>
    obtain ⟨key, value⟩ := head
    obtain ⟨later, laterRead, known⟩ := (readMetadataFields_cons_eq_ok ..).1 read
    rcases known with ⟨own, rfl, rfl, rfl⟩ | ⟨described, texts, rfl, -, -, rfl⟩ | ⟨extension, rfl⟩
    · simp [List.lookup_cons_self]
    · have above := ih laterRead
      exact above
    · have other : ("description" == key) = false :=
        beq_false_of_ne fun same => absurd (same ▸ extension) (by decide)
      rw [List.lookup_cons, other]
      have above := ih laterRead
      exact above

theorem enumDescriptions_of_readMetadataFields
    (read : readMetadataFields here entries = .ok metadata) :
    (entries.lookup "enumDescription" = none ∧ metadata.enumDescriptions = []) ∨
      ∃ value, entries.lookup "enumDescription" = some value ∧
        value.fields? = some (mapValues .string metadata.enumDescriptions) := by
  induction entries generalizing metadata with
  | nil =>
    cases read
    exact .inl ⟨rfl, rfl⟩
  | cons head rest ih =>
    obtain ⟨key, value⟩ := head
    obtain ⟨later, laterRead, known⟩ := (readMetadataFields_cons_eq_ok ..).1 read
    rcases known with ⟨own, rfl, rfl, rfl⟩ | ⟨described, texts, rfl, object, each, rfl⟩ |
      ⟨extension, rfl⟩
    · have above := ih laterRead
      exact above
    · obtain rfl := (readEnumDescriptions_eq_ok ..).1 each
      exact .inr ⟨value, List.lookup_cons_self, object⟩
    · have other : ("enumDescription" == key) = false :=
        beq_false_of_ne fun same => absurd (same ▸ extension) (by decide)
      rw [List.lookup_cons, other]
      have above := ih laterRead
      exact above

theorem isExtension_of_notMem {metadata : Metadata}
    (free : "description" ∉ keys metadata.extensions ∧
      "enumDescription" ∉ keys metadata.extensions) :
    ∀ entry ∈ metadata.extensions, isExtension entry.1 = true := by
  intro entry member
  have inside : entry.1 ∈ keys metadata.extensions := List.mem_map_of_mem member
  simp only [isExtension, Bool.and_eq_true, bne_iff_ne]
  exact ⟨ne_of_mem_of_not_mem inside free.1, ne_of_mem_of_not_mem inside free.2⟩

theorem mem_metadata_members {entry : String × Json} :
    entry ∈ metadata.members ↔
      (∃ text, metadata.description = some text ∧ entry = ("description", .string text)) ∨
        entry = ("enumDescription", .object (mapValues .string metadata.enumDescriptions)) ∨
        entry ∈ metadata.extensions := by
  simp only [Metadata.members, List.mem_append, Option.mem_toList, Option.map_eq_some_iff,
    List.mem_cons, @eq_comm _ entry]

theorem keys_metadata_members :
    keys metadata.members = (metadata.description.map fun _ => "description").toList ++
      "enumDescription" :: keys metadata.extensions := by
  cases found : metadata.description <;> simp [Metadata.members, keys, found]

theorem nodup_keys_metadata_members (extensions : Increasing metadata.extensions)
    (free : "description" ∉ keys metadata.extensions ∧
      "enumDescription" ∉ keys metadata.extensions) : (keys metadata.members).Nodup := by
  have distinct : (keys metadata.extensions).Nodup :=
    (Keyed.increasing_iff_keys.1 extensions).imp String.ne_of_lt
  rw [keys_metadata_members]
  cases metadata.description with
  | none => simpa using ⟨free.2, distinct⟩
  | some text => simpa using ⟨free.1, free.2, distinct⟩

theorem extensions_of_members (free : "description" ∉ keys metadata.extensions ∧
      "enumDescription" ∉ keys metadata.extensions) :
    (metadata.members.filter fun entry => isExtension entry.1) = metadata.extensions := by
  have all := List.filter_eq_self.2 (isExtension_of_notMem free)
  cases found : metadata.description <;> simpa [Metadata.members, found, isExtension] using all

/-- Sorted or not, the members of a metadata object are read as what they were written from. -/
theorem readMetadataFields_members (here : Pointer)
    (enumDescriptions : Increasing metadata.enumDescriptions)
    (extensions : Increasing metadata.extensions)
    (free : "description" ∉ keys metadata.extensions ∧
      "enumDescription" ∉ keys metadata.extensions) :
    readMetadataFields here (Keyed.ofList metadata.members) = .ok metadata := by
  have differ : "description" ≠ "enumDescription" := by decide
  have sorted := Keyed.perm_ofList (nodup_keys_metadata_members extensions free)
  have increasing := Keyed.increasing_ofList metadata.members
  have described : Json.fields? (.object (mapValues .string metadata.enumDescriptions)) =
      some (mapValues .string metadata.enumDescriptions) :=
    congrArg some (Keyed.ofList_eq_self ((Keyed.increasing_mapValues _).2 enumDescriptions))
  obtain ⟨result, read⟩ : ∃ result,
      readMetadataFields here (Keyed.ofList metadata.members) = .ok result := by
    refine (readMetadataFields_succeeds ..).2 fun entry member => ?_
    rcases mem_metadata_members.1 (sorted.mem_iff.1 member) with ⟨text, -, rfl⟩ | rfl | extension
    · exact ⟨fun _ => ⟨text, rfl⟩, fun same => (differ same).elim⟩
    · refine ⟨fun same => (differ same.symm).elim, fun _ => ⟨_, described, ?_⟩⟩
      exact List.forall_mem_map.2 fun entry _ => ⟨entry.2, rfl⟩
    · have inside : entry.1 ∈ keys metadata.extensions := List.mem_map_of_mem extension
      exact ⟨fun same => (free.1 (same ▸ inside)).elim, fun same => (free.2 (same ▸ inside)).elim⟩
  have sameDescription : result.description = metadata.description := by
    refine Option.ext fun text => ?_
    rw [description_of_readMetadataFields read, Keyed.lookup_eq_some_iff_mem increasing,
      sorted.mem_iff, mem_metadata_members]
    constructor
    · rintro (⟨own, found, same⟩ | same | extension)
      · cases same
        exact found
      · exact (differ (congrArg Prod.fst same)).elim
      · exact (free.1 (Keyed.mem_keys.2 ⟨_, extension⟩)).elim
    · exact fun found => .inl ⟨text, found, rfl⟩
  have sameEnumDescriptions : result.enumDescriptions = metadata.enumDescriptions := by
    have written := Keyed.lookup_of_mem increasing
      (sorted.mem_iff.2 (mem_metadata_members.2 (.inr (.inl rfl))))
    rcases enumDescriptions_of_readMetadataFields read with ⟨absent, -⟩ | ⟨value, found, object⟩
    · cases absent.symm.trans written
    · cases found.symm.trans written
      have same := Option.some.inj (described.symm.trans object)
      have first := (readEnumDescriptions_eq_ok here _ _).2 same
      exact Except.ok.inj (first.symm.trans ((readEnumDescriptions_eq_ok ..).2 rfl))
  have sameExtensions : result.extensions = metadata.extensions := by
    rw [extensions_of_readMetadataFields read]
    refine Keyed.eq_of_increasing (increasing.filter _) extensions ?_
    exact (sorted.filter _).trans (.of_eq (extensions_of_members free))
  rw [read]
  obtain ⟨_, _, _⟩ := metadata
  obtain ⟨_, _, _⟩ := result
  cases sameDescription
  cases sameEnumDescriptions
  cases sameExtensions
  rfl

end Metadata

section Nodes

variable {node : Node} {fields : List (String × Json)}

theorem mem_node_members {entry : String × Json} :
    entry ∈ node.members ↔ entry ∈ node.form.members ∨
      (node.nullable = true ∧ entry = ("nullable", .bool true)) ∨
      entry = ("metadata", .object node.metadata.members) := by
  obtain ⟨form, nullable, metadata⟩ := node
  cases nullable <;>
    simp [Node.members, Node.form, Node.nullable, Node.metadata]

theorem mem_keys_node_members {key : String} :
    key ∈ keys node.members ↔ key ∈ keys node.form.members ∨
      (node.nullable = true ∧ key = "nullable") ∨ key = "metadata" := by
  simp only [Keyed.mem_keys, mem_node_members, Prod.mk.injEq, exists_or, exists_and_left,
    exists_eq, and_true]

/-- The keywords of a form are its own. -/
theorem keys_form_members (form : Form) : (keys form.members).Nodup ∧
    ∀ key ∈ keys form.members, key ∈ keywords ∧ key ∉ ["definitions", "nullable", "metadata"] := by
  cases form with
  | properties required optional additional =>
    cases additional <;> simp [Form.members, keys, keywords]
  | _ => simp [Form.members, keys, keywords]

theorem definitions_notMem_keys (node : Node) : "definitions" ∉ keys node.members := by
  intro inside
  rcases mem_keys_node_members.1 inside with form | ⟨-, nullable⟩ | metadata
  · exact ((keys_form_members node.form).2 _ form).2 List.mem_cons_self
  · exact absurd nullable (by decide)
  · exact absurd metadata (by decide)

theorem nodup_keys_members (node : Node) : (keys node.members).Nodup := by
  obtain ⟨form, nullable, metadata⟩ := node
  obtain ⟨distinct, own⟩ := keys_form_members form
  have parts : keys (Node.mk form nullable metadata).members =
      keys form.members ++ ((if nullable then ["nullable"] else []) ++ ["metadata"]) := by
    cases nullable <;> simp [Node.members, keys]
  rw [parts]
  refine distinct.append (by cases nullable <;> decide) fun key inside other => ?_
  have shared : key ∈ ["definitions", "nullable", "metadata"] := by
    cases nullable <;> simp_all
  exact (own key inside).2 shared

theorem nodup_keys_schema_members (schema : Schema) : (keys schema.members).Nodup :=
  List.nodup_cons.2 ⟨definitions_notMem_keys schema.root, nodup_keys_members schema.root⟩

/-- The fields are the members of a node, definitions apart. -/
structure Written (fields : List (String × Json)) (node : Node) : Prop where
  increasing : Increasing fields
  mem : ∀ key value, key ≠ "definitions" → ((key, value) ∈ fields ↔ (key, value) ∈ node.members)

theorem written_ofList {members : List (String × Json)} (distinct : (keys members).Nodup)
    (mem : ∀ key value, key ≠ "definitions" →
      ((key, value) ∈ members ↔ (key, value) ∈ node.members)) :
    Written (Keyed.ofList members) node where
  increasing := Keyed.increasing_ofList members
  mem key value other := (Keyed.perm_ofList distinct).mem_iff.trans (mem key value other)

theorem Written.lookup (written : Written fields node) {key : String} {value : Json}
    (member : (key, value) ∈ node.form.members) : fields.lookup key = some value := by
  have inside : key ∈ keys node.form.members := Keyed.mem_keys.2 ⟨value, member⟩
  have other := ((keys_form_members node.form).2 key inside).2
  refine Keyed.lookup_of_mem written.increasing ((written.mem key value ?_).2 ?_)
  · rintro rfl
    exact other (by decide)
  · exact mem_node_members.2 (.inl member)

theorem Written.mem_keys (written : Written fields node) {key : String}
    (other : key ≠ "definitions") : key ∈ keys fields ↔ key ∈ keys node.members := by
  simp only [Keyed.mem_keys, written.mem key _ other]

theorem Written.mem_keys_form (written : Written fields node) {key : String}
    (other : key ∉ ["definitions", "nullable", "metadata"]) :
    key ∈ keys fields ↔ key ∈ keys node.form.members := by
  simp only [List.mem_cons, List.not_mem_nil, or_false, not_or] at other
  simp only [written.mem_keys other.1, mem_keys_node_members, other, and_false, or_false]

theorem Written.presentGroups (written : Written fields node) :
    presentGroups fields = presentGroups node.form.members := by
  have own : ∀ group ∈ FormGroup.all, ∀ keyword ∈ group.keywords,
      keyword ∉ ["definitions", "nullable", "metadata"] := by decide
  exact presentGroups_congr fun group listed keyword mine =>
    written.mem_keys_form (own group listed keyword mine)

theorem sizeOf_lt_of_mem {entries : List (String × Node)} {name : String} {child : Node}
    (member : (name, child) ∈ entries) : sizeOf child < sizeOf entries := by
  have := List.sizeOf_lt_of_mem member
  simp only [Prod.mk.sizeOf_spec] at this
  omega

theorem sizeOf_lt_of_hasChild {child : Node} (below : HasChild node child) :
    sizeOf child < sizeOf node := by
  obtain ⟨form, nullable, metadata⟩ := node
  have whole : sizeOf form < sizeOf (Node.mk form nullable metadata) := by
    simp only [Node.mk.sizeOf_spec]
    omega
  refine Nat.lt_trans ?_ whole
  cases below with
  | element same | value same =>
    cases same
    simp
  | required same member | optional same member =>
    cases same
    have := sizeOf_lt_of_mem member
    simp only [Form.properties.sizeOf_spec]
    omega
  | variant same member =>
    cases same
    have := sizeOf_lt_of_mem member
    simp only [Form.discriminator.sizeOf_spec]
    omega

/-- What is true of a node when it is true of those right below it holds of all nodes. -/
theorem node_induction {Holds : Node → Prop}
    (step : ∀ node, (∀ child, HasChild node child → Holds child) → Holds node) (node : Node) :
    Holds node :=
  step node fun child _ => node_induction step child
termination_by sizeOf node
decreasing_by exact sizeOf_lt_of_hasChild ‹_›

end Nodes

section Reading

variable {schema : Schema} {names : List String} {node : Node} {fields : List (String × Json)}
  {here : Pointer}

theorem readFlag_members {keyword : String} {flag : Bool}
    (present : flag = true → fields.lookup keyword = some (.bool true))
    (absent : flag = false → keyword ∉ keys fields) : readFlag here fields keyword = .ok flag := by
  cases flag with
  | false => exact (readFlag_eq_ok ..).2 (.inl ⟨Keyed.lookup_eq_none_iff_keys.2 (absent rfl), rfl⟩)
  | true => exact (readFlag_eq_ok ..).2 (.inr (present rfl))

theorem readEntries_toJson {check : String → Pointer → Node → Except Fault Unit}
    {nodes : List (String × Node)}
    (each : ∀ entry ∈ nodes, ∀ here, readNode names false here entry.2.toJson = .ok entry.2)
    (checks : ∀ entry ∈ nodes, ∀ here, check entry.1 here entry.2 = .ok ()) :
    readEntries names here check (mapValues Node.toJson nodes) = .ok nodes := by
  refine (readEntries_eq_ok ..).2 (List.forall₂_map_left_iff.2 ?_)
  exact List.forall₂_same.2 fun entry member => ⟨rfl, each entry member _, checks entry member _⟩

theorem fields?_entryMembers {nodes : List (String × Node)} (increasing : Increasing nodes) :
    Json.fields? (.object (entryMembers nodes)) = some (mapValues Node.toJson nodes) := by
  rw [entryMembers_eq_mapValues]
  exact congrArg some (Keyed.ofList_eq_self ((Keyed.increasing_mapValues _).2 increasing))

theorem readNodes_toJson {keyword : String} {nodes : List (String × Node)}
    (increasing : Increasing nodes)
    (found : fields.lookup keyword = some (.object (entryMembers nodes)))
    (each : ∀ entry ∈ nodes, ∀ here, readNode names false here entry.2.toJson = .ok entry.2) :
    readNodes names here fields keyword = .ok nodes :=
  (readNodes_eq_ok ..).2 (.inr ⟨_, _, found, fields?_entryMembers increasing,
    readEntries_toJson each fun _ _ _ => rfl⟩)

/-- The form of a node is read from its members when the nodes right below it are. -/
theorem formRead_of_written (wellFormed : WellFormed schema) (within : Contains schema node)
    (written : Written fields node)
    (below : ∀ child, HasChild node child → ∀ here,
      readNode (keys schema.definitions) false here child.toJson = .ok child) :
    FormRead (keys schema.definitions) here fields node.form := by
  have present := written.presentGroups
  have ordered := wellFormed.ordered node within
  have listed {key : String} {value : Json} (member : (key, value) ∈ node.form.members) :=
    written.lookup member
  cases form : node.form with
  | empty =>
    rw [form] at present
    exact .empty present
  | ref definition =>
    rw [form] at present listed
    exact .ref present (listed List.mem_cons_self) (wellFormed.ref node within definition form)
  | type primitive =>
    rw [form] at present listed
    exact .type present (listed List.mem_cons_self)
  | enum values =>
    rw [form] at present listed
    obtain ⟨nonempty, distinct⟩ := wellFormed.enum node within values form
    exact .enum present (listed List.mem_cons_self) nonempty distinct
  | elements item =>
    rw [form] at present listed
    exact .elements present (listed List.mem_cons_self) (below item (.element form) _)
  | properties required optional additional =>
    have additionalRead : readFlag here fields "additionalProperties" = .ok additional := by
      refine readFlag_members (fun same => listed ?_) fun same inside => ?_
      · simp [form, Form.members, same]
      · have own := (written.mem_keys_form (by decide)).1 inside
        simp [form, Form.members, same, keys] at own
    rw [form] at present listed
    obtain ⟨requiredOrder, optionalOrder⟩ := ordered.properties _ _ _ form
    have requiredFound := listed List.mem_cons_self
    have optionalFound := listed (List.mem_cons_of_mem _ List.mem_cons_self)
    refine .properties ?_ (.inl (Keyed.mem_keys_iff_lookup.2 ⟨_, requiredFound⟩))
      (readNodes_toJson requiredOrder requiredFound fun entry member =>
        below entry.2 (.required form member))
      (readNodes_toJson optionalOrder optionalFound fun entry member =>
        below entry.2 (.optional form member))
      (fun name inOptional inRequired =>
        wellFormed.properties node within _ _ _ form name inRequired inOptional) additionalRead
    rw [present]
    cases additional <;> rfl
  | values item =>
    rw [form] at present listed
    exact .values present (listed List.mem_cons_self) (below item (.value form) _)
  | discriminator tag mapping =>
    rw [form] at present listed
    obtain ⟨nonempty, variants⟩ := wellFormed.discriminator node within tag mapping form
    refine .discriminator present (listed List.mem_cons_self)
      (listed (List.mem_cons_of_mem _ List.mem_cons_self))
      (fields?_entryMembers (ordered.mapping tag mapping form)) ?_
      (readEntries_toJson (fun entry member => below entry.2 (.variant form member)) ?_)
    · exact fun none => nonempty (List.map_eq_nil_iff.1 none)
    · intro entry member here
      obtain ⟨nullable, required, optional, additional, form, absent⟩ := variants entry member
      exact (checkVariant_eq_ok ..).2 ⟨required, optional, additional, form, nullable, absent⟩

theorem readNode_of_written (wellFormed : WellFormed schema) (within : Contains schema node)
    {isRoot : Bool} {value : Json} (object : value.fields? = some fields)
    (written : Written fields node) (root : "definitions" ∈ keys fields → isRoot = true)
    (below : ∀ child, HasChild node child → ∀ here,
      readNode (keys schema.definitions) false here child.toJson = .ok child) :
    readNode (keys schema.definitions) isRoot here value = .ok node := by
  have ordered := wellFormed.ordered node within
  have found {key : String} {value : Json} (other : key ≠ "definitions")
      (member : (key, value) ∈ node.members) : fields.lookup key = some value :=
    Keyed.lookup_of_mem written.increasing ((written.mem key value other).2 member)
  refine (readNode_eq_ok ..).2 ⟨fields, object, ?keywords, ?metadata, ?nullable, ?form⟩
  case keywords =>
    refine (checkKeywords_eq_ok ..).2 fun key inside => ⟨?_, fun same => root (same ▸ inside)⟩
    by_cases other : key ∈ ["definitions", "nullable", "metadata"]
    · exact (by decide : ∀ key ∈ ["definitions", "nullable", "metadata"], key ∈ keywords) key other
    · exact ((keys_form_members node.form).2 key ((written.mem_keys_form other).1 inside)).1
  case metadata =>
    have described := found (by decide) (mem_node_members.2 (.inr (.inr rfl)))
    exact (readMetadata_eq_ok ..).2 (.inr ⟨_, _, described, rfl,
      readMetadataFields_members _ ordered.enumDescriptions ordered.extensions
        (wellFormed.extensions node within)⟩)
  case nullable =>
    refine readFlag_members (fun same => found (by decide) ?_) fun same inside => ?_
    · exact mem_node_members.2 (.inr (.inl ⟨same, rfl⟩))
    · rcases mem_keys_node_members.1 ((written.mem_keys (by decide)).1 inside) with
        form | ⟨nullable, -⟩ | metadata
      · exact ((keys_form_members node.form).2 _ form).2 (by decide)
      · cases same.symm.trans nullable
      · exact absurd metadata (by decide)
  case form => exact (readForm_eq_ok _).2 (formRead_of_written wellFormed within written below)

theorem readNode_toJson (wellFormed : WellFormed schema) (within : Contains schema node)
    (here : Pointer) : readNode (keys schema.definitions) false here node.toJson = .ok node := by
  induction node using node_induction generalizing here with
  | step node ih =>
    have distinct := nodup_keys_members node
    refine readNode_of_written wellFormed within rfl (written_ofList distinct fun _ _ _ => .rfl)
      (fun inside => ?_) fun child below => ih child below (within.child below)
    exact (definitions_notMem_keys node
      ((Keyed.perm_keys (Keyed.perm_ofList distinct)).mem_iff.1 inside)).elim

theorem readRoot_toJson (wellFormed : WellFormed schema) :
    readNode (keys schema.definitions) true .root schema.toJson = .ok schema.root := by
  refine readNode_of_written wellFormed .root rfl (written_ofList
    (nodup_keys_schema_members schema) fun key value other => ?_) (fun _ => rfl) fun child below =>
      readNode_toJson wellFormed (.child .root below)
  simp [members, other]

theorem ofJson_toJson (wellFormed : WellFormed schema) : ofJson schema.toJson = .ok schema := by
  have found : (Keyed.ofList schema.members).lookup "definitions" =
      some (.object (entryMembers schema.definitions)) :=
    (lookup_ofList (nodup_keys_schema_members schema) _).trans List.lookup_cons_self
  refine (ofJson_eq_ok ..).2 ⟨_, _, rfl, .inr ⟨_, found,
    fields?_entryMembers wellFormed.definitions⟩, ?root, ?definitions,
    checkRefChains_eq_ok.2 wellFormed.acyclic⟩
  case root =>
    rw [Keyed.keys_mapValues]
    exact readRoot_toJson wellFormed
  case definitions =>
    rw [Keyed.keys_mapValues]
    exact readEntries_toJson (fun entry member => readNode_toJson wellFormed (.definition member))
      fun _ _ _ => rfl

theorem increasing_of_readMetadata {metadata : Metadata}
    (read : readMetadata here fields = .ok metadata) :
    Increasing metadata.enumDescriptions ∧ Increasing metadata.extensions := by
  rcases (readMetadata_eq_ok ..).1 read with ⟨-, rfl⟩ | ⟨value, entries, -, object, read⟩
  · exact ⟨.nil, .nil⟩
  · have increasing := Json.increasing_fields object
    constructor
    · rcases enumDescriptions_of_readMetadataFields read with ⟨-, none⟩ | ⟨_, -, described⟩
      · rw [none]
        exact .nil
      · exact (Keyed.increasing_mapValues _).1 (Json.increasing_fields described)
    · rw [extensions_of_readMetadataFields read]
      exact increasing.filter _

theorem wellFormed_of_ofJson {document : Json} (read : ofJson document = .ok schema) :
    WellFormed schema := by
  have regular := regular_of_ofJson read
  constructor
  case definitions => exact regular.definitions
  case ordered =>
    intro node within
    obtain ⟨_, _, _, nodeRead⟩ := readNode_of_contains read within
    obtain ⟨_, -, -, metadataRead, -, -⟩ := (readNode_eq_ok ..).1 nodeRead
    obtain ⟨enumDescriptions, extensions⟩ := increasing_of_readMetadata metadataRead
    have own := regular.nodes node within
    exact ⟨fun _ _ _ form => ⟨(own.properties _ _ _ form).1, (own.properties _ _ _ form).2.1⟩,
      fun _ _ form => (own.mapping _ _ form).1, enumDescriptions, extensions⟩
  case ref => exact regular.refs
  case enum =>
    intro node within values form
    obtain ⟨_, _, _, nodeRead⟩ := readNode_of_contains read within
    obtain ⟨_, formRead⟩ := form_of_readNode nodeRead
    rw [form] at formRead
    cases formRead with
    | enum _ _ nonempty distinct => exact ⟨nonempty, distinct⟩
  case properties =>
    exact fun node within _ _ _ form => ((regular.nodes node within).properties _ _ _ form).2.2
  case discriminator =>
    intro node within tag mapping form
    obtain ⟨_, _, _, nodeRead⟩ := readNode_of_contains read within
    exact variants_of_readNode nodeRead form
  case extensions =>
    intro node within
    obtain ⟨_, _, _, nodeRead⟩ := readNode_of_contains read within
    have other := extensions_of_readNode nodeRead
    exact ⟨fun member => absurd (other _ member) (by decide),
      fun member => absurd (other _ member) (by decide)⟩
  case acyclic =>
    obtain ⟨_, _, _, _, _, _, chains⟩ := (ofJson_eq_ok ..).1 read
    exact checkRefChains_eq_ok.1 chains

/-- Reading what was written gives back a schema if and only if it is well formed. -/
theorem ofJson_toJson_iff (schema : Schema) :
    ofJson schema.toJson = .ok schema ↔ WellFormed schema :=
  ⟨wellFormed_of_ofJson, ofJson_toJson⟩

theorem ofJson_toJson_drawing :
    ∃ schema, ofJson drawing = .ok schema ∧ ofJson schema.toJson = .ok schema := by
  obtain ⟨schema, read⟩ := exists_ofJson_drawing
  exact ⟨schema, read, (ofJson_toJson_iff schema).2 (wellFormed_of_ofJson read)⟩

end Reading

end Schema

end SchemaBindings
