import SchemaBindings.Proofs.Schema.RefChains
import SchemaBindings.Proofs.Schema.Success

/-! Every schema that is read is well formed at each of its nodes. -/

namespace SchemaBindings.Schema

open Keyed (keys)

/-- A node right below another. -/
inductive HasChild (node : Node) : Node → Prop
  | element {item : Node} (form : node.form = .elements item) : HasChild node item
  | value {item : Node} (form : node.form = .values item) : HasChild node item
  | required {required optional : List (String × Node)} {additional : Bool} {name : String}
      {child : Node} (form : node.form = .properties required optional additional)
      (member : (name, child) ∈ required) : HasChild node child
  | optional {required optional : List (String × Node)} {additional : Bool} {name : String}
      {child : Node} (form : node.form = .properties required optional additional)
      (member : (name, child) ∈ optional) : HasChild node child
  | variant {tag : String} {mapping : List (String × Node)} {tagValue : String} {child : Node}
      (form : node.form = .discriminator tag mapping) (member : (tagValue, child) ∈ mapping) :
      HasChild node child

/-- A node of the root or of a definition, at any depth. -/
inductive Contains (schema : Schema) : Node → Prop
  | root : Contains schema schema.root
  | definition {name : String} {node : Node} (member : (name, node) ∈ schema.definitions) :
      Contains schema node
  | child {node child : Node} (within : Contains schema node) (below : HasChild node child) :
      Contains schema child

/-- So many references, one after the other, lead from one node to another. -/
inductive Follows (definitions : List (String × Node)) : Nat → Node → Node → Prop
  | here {node : Node} : Follows definitions 0 node node
  | step {steps : Nat} {node next last : Node} {target : String} (form : node.form = .ref target)
      (found : definitions.lookup target = some next) (rest : Follows definitions steps next last) :
      Follows definitions (steps + 1) node last

/-- What every node of a schema is promised to be. -/
structure WellFormedNode (schema : Schema) (node : Node) : Prop where
  ref : ∀ target, node.form = .ref target → target ∈ keys schema.definitions
  enum : ∀ values, node.form = .enum values → values ≠ [] ∧ values.Nodup
  properties : ∀ required optional additional,
    node.form = .properties required optional additional →
    ∀ name ∈ keys required, name ∉ keys optional
  discriminator : ∀ tag mapping, node.form = .discriminator tag mapping → mapping ≠ [] ∧
    ∀ entry ∈ mapping, entry.2.nullable = false ∧ ∃ required optional additional,
      entry.2.form = .properties required optional additional ∧
      tag ∉ keys required ∧ tag ∉ keys optional
  extensions : "description" ∉ keys node.metadata.extensions ∧
    "enumDescription" ∉ keys node.metadata.extensions
  settles : ∃ steps ≤ schema.definitions.length, ∃ last,
    Follows schema.definitions steps node last ∧ ∀ target, last.form ≠ .ref target

section Reading

variable {names : List String} {isRoot : Bool} {here : Pointer} {value : Json} {node : Node}

theorem readNode_of_hasChild (read : readNode names isRoot here value = .ok node) {child : Node}
    (below : HasChild node child) :
    ∃ place inner, readNode names false place inner = .ok child := by
  obtain ⟨fields, -, -, -, -, read⟩ := (readNode_eq_ok ..).1 read
  have formRead := (readForm_eq_ok _).1 read
  cases below with
  | element form =>
    rw [form] at formRead
    cases formRead with
    | elements _ _ read => exact ⟨_, _, read⟩
  | value form =>
    rw [form] at formRead
    cases formRead with
    | values _ _ read => exact ⟨_, _, read⟩
  | required form member =>
    rw [form] at formRead
    cases formRead with
    | properties _ _ requiredRead _ _ _ => exact readNode_of_mem_readNodes requiredRead member
  | optional form member =>
    rw [form] at formRead
    cases formRead with
    | properties _ _ _ optionalRead _ _ => exact readNode_of_mem_readNodes optionalRead member
  | variant form member =>
    rw [form] at formRead
    cases formRead with
    | discriminator _ _ _ _ _ read =>
      obtain ⟨inner, -, read, -⟩ := entry_of_readEntries read member
      exact ⟨_, inner, read⟩

theorem extensions_of_readNode (read : readNode names isRoot here value = .ok node) :
    ∀ key ∈ keys node.metadata.extensions, isExtension key = true := by
  obtain ⟨fields, -, -, read, -, -⟩ := (readNode_eq_ok ..).1 read
  rcases (readMetadata_eq_ok ..).1 read with ⟨-, empty⟩ | ⟨_, entries, -, -, read⟩
  · rw [empty]
    simp [Metadata.empty, keys]
  · rw [extensions_of_readMetadataFields read]
    simp only [keys, List.forall_mem_map, List.mem_filter]
    exact fun entry member => member.2

theorem form_of_readNode (read : readNode names isRoot here value = .ok node) :
    ∃ fields, FormRead names here fields node.form := by
  obtain ⟨fields, -, -, -, -, read⟩ := (readNode_eq_ok ..).1 read
  exact ⟨fields, (readForm_eq_ok _).1 read⟩

theorem ref_known_of_readNode (read : readNode names isRoot here value = .ok node) {target : String}
    (form : node.form = .ref target) : target ∈ names := by
  obtain ⟨fields, formRead⟩ := form_of_readNode read
  rw [form] at formRead
  cases formRead with
  | ref _ _ defined => exact defined

/-- A union has variants. None accepts null or has the tag among its properties. -/
theorem variants_of_readNode (read : readNode names isRoot here value = .ok node) {tag : String}
    {mapping : List (String × Node)} (form : node.form = .discriminator tag mapping) :
    mapping ≠ [] ∧ ∀ entry ∈ mapping, entry.2.nullable = false ∧
      ∃ required optional additional, entry.2.form = .properties required optional additional ∧
        tag ∉ keys required ∧ tag ∉ keys optional := by
  obtain ⟨fields, formRead⟩ := form_of_readNode read
  rw [form] at formRead
  cases formRead with
  | discriminator _ _ _ _ nonempty read =>
    constructor
    · rintro rfl
      exact nonempty (by simpa [keys] using (keys_readEntries read).symm)
    · intro entry member
      obtain ⟨_, -, -, checked⟩ := entry_of_readEntries read member
      obtain ⟨required, optional, additional, form, nullable, absent⟩ :=
        (checkVariant_eq_ok ..).1 checked
      exact ⟨nullable, required, optional, additional, form, absent⟩

end Reading

section Chains

variable {definitions : List (String × Node)}

/-- When every reference is to a definition, names that lead on stand for nodes that do. -/
theorem follows_of_leads {steps : Nat} {name last : String}
    (leads : Leads definitions steps name last)
    (known : ∀ name target, RefersTo definitions name target → target ∈ keys definitions)
    {node : Node} (found : definitions.lookup name = some node) :
    ∃ lastNode, definitions.lookup last = some lastNode ∧
      Follows definitions steps node lastNode := by
  induction leads generalizing node with
  | here => exact ⟨node, found, .here⟩
  | step refers _ ih =>
    obtain ⟨next, nextFound⟩ := Keyed.mem_keys_iff_lookup.1 (known _ _ refers)
    obtain ⟨lastNode, lastFound, follows⟩ := ih nextFound
    obtain ⟨_, same, form⟩ := refers
    cases found.symm.trans same
    exact ⟨lastNode, lastFound, .step form nextFound follows⟩

/-- A node settles within as many references as there are definitions: one leads to a definition,
and on from there each definition is passed once. -/
theorem settles_of_checkRefChains (checked : checkRefChains definitions = .ok ())
    (known : ∀ name target, RefersTo definitions name target → target ∈ keys definitions)
    (node : Node) (own : ∀ target, node.form = .ref target → target ∈ keys definitions) :
    ∃ steps ≤ definitions.length, ∃ last,
      Follows definitions steps node last ∧ ∀ target, last.form ≠ .ref target := by
  by_cases reference : ∃ target, node.form = .ref target
  · obtain ⟨target, form⟩ := reference
    have member := own target form
    obtain ⟨next, found⟩ := Keyed.mem_keys_iff_lookup.1 member
    obtain ⟨steps, last, leads, stops, -, bound⟩ := leads_of_repeatedFrom_eq_none (by simp)
      (checkRefChains_eq_ok_iff_clear.1 checked target member)
    obtain ⟨lastNode, lastFound, follows⟩ := follows_of_leads leads known found
    have shorter : steps < definitions.length := by
      have := bound (Keyed.mem_keys_iff_lookup.2 ⟨lastNode, lastFound⟩)
      have := List.length_filter_le (fun d => !([] : List String).contains d.1) definitions
      unfold unvisited at *
      omega
    exact ⟨steps + 1, shorter, lastNode, .step form found follows,
      fun target form => stops target ⟨lastNode, lastFound, form⟩⟩
  · exact ⟨0, Nat.zero_le _, node, .here, fun target form => reference ⟨target, form⟩⟩

end Chains

section Documents

variable {document : Json} {schema : Schema}

theorem readNode_of_contains (read : ofJson document = .ok schema) {node : Node}
    (within : Contains schema node) :
    ∃ isRoot here value, readNode (keys schema.definitions) isRoot here value = .ok node := by
  obtain ⟨fields, definitions, -, -, rootRead, read, -⟩ := (ofJson_eq_ok ..).1 read
  rw [keys_readEntries read]
  induction within with
  | root => exact ⟨_, _, _, rootRead⟩
  | definition member =>
    obtain ⟨value, -, read, -⟩ := entry_of_readEntries read member
    exact ⟨_, _, value, read⟩
  | child _ below ih =>
    obtain ⟨_, _, _, read⟩ := ih
    exact ⟨_, readNode_of_hasChild read below⟩

/-- Whatever document a schema is read from, all its nodes are well formed. -/
theorem wellFormedNode_of_ofJson (read : ofJson document = .ok schema) (node : Node)
    (within : Contains schema node) : WellFormedNode schema node := by
  obtain ⟨isRoot, here, value, nodeRead⟩ := readNode_of_contains read within
  obtain ⟨fields, formRead⟩ := form_of_readNode nodeRead
  constructor
  case ref => exact fun target form => ref_known_of_readNode nodeRead form
  case enum =>
    intro values form
    rw [form] at formRead
    cases formRead with
    | enum _ _ nonempty distinct => exact ⟨nonempty, distinct⟩
  case properties =>
    intro required optional additional form
    rw [form] at formRead
    cases formRead with
    | properties _ _ _ _ disjoint _ =>
      exact fun name inRequired inOptional => disjoint name inOptional inRequired
  case discriminator => exact fun tag mapping form => variants_of_readNode nodeRead form
  case extensions =>
    have other := extensions_of_readNode nodeRead
    exact ⟨fun member => absurd (other _ member) (by decide),
      fun member => absurd (other _ member) (by decide)⟩
  case settles =>
    obtain ⟨_, _, _, _, _, _, chains⟩ := (ofJson_eq_ok ..).1 read
    refine settles_of_checkRefChains chains ?_ node fun target form =>
      ref_known_of_readNode nodeRead form
    rintro name target ⟨definition, found, form⟩
    obtain ⟨_, _, _, definitionRead⟩ :=
      readNode_of_contains read (.definition (Keyed.mem_of_lookup found))
    exact ref_known_of_readNode definitionRead form

end Documents

/-- A root that refers to the only definition. -/
def referring : Json :=
  .object [("definitions", .object [("a", .object [("enum", .array [.string "x"])])]),
    ("ref", .string "a")]

def referringSchema : Schema :=
  ⟨⟨.ref "a", false, .empty⟩, [("a", ⟨.enum ["x"], false, .empty⟩)]⟩

theorem ofJson_referring : ofJson referring = .ok referringSchema := by
  have rootRead : readNode ["a"] true .root referring = .ok referringSchema.root :=
    (readNode_eq_ok ..).2 ⟨_, rfl, by decide, by rfl, by rfl,
      (readForm_eq_ok _).2 (.ref (by decide) (by rfl) (by decide))⟩
  have read (here : Pointer) :
      readNode ["a"] false here (.object [("enum", .array [.string "x"])]) =
        .ok ⟨.enum ["x"], false, .empty⟩ :=
    (readNode_eq_ok ..).2 ⟨_, rfl, by rfl, by rfl, by rfl,
      (readForm_eq_ok _).2 (.enum (by decide) (by rfl) (by decide) (by decide))⟩
  have chains : checkRefChains referringSchema.definitions = .ok () := by
    refine checkRefChains_eq_ok_iff_clear.2 fun name member => ?_
    obtain rfl : name = "a" := by simpa [referringSchema, keys] using member
    unfold repeatedFrom
    rfl
  exact (ofJson_eq_ok ..).2 ⟨_, [("a", _)], rfl, .inr ⟨_, by rfl, rfl⟩, rootRead,
    (readEntries_eq_ok ..).2 (.cons ⟨rfl, read _, rfl⟩ .nil), chains⟩

theorem wellFormedNode_referring :
    ofJson referring = .ok referringSchema ∧ Contains referringSchema referringSchema.root ∧
      WellFormedNode referringSchema referringSchema.root :=
  ⟨ofJson_referring, .root, wellFormedNode_of_ofJson ofJson_referring _ .root⟩

end SchemaBindings.Schema
