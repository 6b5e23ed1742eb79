import SchemaBindings.Proofs.Schema.Grammar
import SchemaBindings.Proofs.Schema.RefChains
import SchemaBindings.Proofs.Schema.Success

/-! The reader accepts a document exactly when the grammar does. -/

namespace SchemaBindings.Schema

open Keyed (keys)
open Grammar (IsMetadata HasGroup IsVariant ObeysRules Subnode IsNode IsDocument)

theorem readMetadata_succeeds {value : Json} {fields : List (String × Json)}
    (object : value.fields? = some fields) (here : Pointer) :
    (∃ metadata, readMetadata here fields = .ok metadata) ↔
      ∀ held, value.field? "metadata" = some held → IsMetadata held := by
  simp only [readMetadata_eq_ok, Json.field?_eq_lookup object]
  constructor
  · rintro ⟨metadata, ⟨none, -⟩ | ⟨held, entries, found, inner, read⟩⟩ other same
    · cases none.symm.trans same
    · cases found.symm.trans same
      have each := (readMetadataFields_succeeds _ entries).1 ⟨metadata, read⟩
      refine ⟨Json.isObject_iff.2 ⟨entries, inner⟩, fun text found => ?_, fun described found => ?_⟩
      · rw [Json.field?_eq_lookup inner] at found
        exact (each _ (Keyed.mem_of_lookup found)).1 rfl
      · rw [Json.field?_eq_lookup inner] at found
        obtain ⟨texts, innermost, all⟩ := (each _ (Keyed.mem_of_lookup found)).2 rfl
        refine ⟨Json.isObject_iff.2 ⟨texts, innermost⟩, fun enumValue text found => ?_⟩
        rw [Json.field?_eq_lookup innermost] at found
        exact all _ (Keyed.mem_of_lookup found)
  · intro valid
    cases found : fields.lookup "metadata" with
    | none => exact ⟨.empty, .inl ⟨rfl, rfl⟩⟩
    | some held =>
      have known := valid held found
      obtain ⟨entries, inner⟩ := Json.isObject_iff.1 known.object
      have each : ∀ entry ∈ entries, IsMetadataEntry entry := by
        rintro ⟨key, text⟩ member
        have held := Keyed.lookup_of_mem (Json.increasing_fields inner) member
        rw [← Json.field?_eq_lookup inner] at held
        constructor
        · rintro rfl
          exact known.description text held
        · rintro rfl
          obtain ⟨object, all⟩ := known.enumDescription text held
          obtain ⟨texts, innermost⟩ := Json.isObject_iff.1 object
          refine ⟨texts, innermost, fun d member => all d.1 d.2 ?_⟩
          rw [Json.field?_eq_lookup innermost]
          exact Keyed.lookup_of_mem (Json.increasing_fields innermost) member
      obtain ⟨metadata, read⟩ :=
        (readMetadataFields_succeeds (here.child "metadata") entries).2 each
      exact ⟨metadata, .inr ⟨held, entries, rfl, inner, read⟩⟩

theorem readFlag_succeeds (here : Pointer) (fields : List (String × Json)) (keyword : String) :
    (∃ flag, readFlag here fields keyword = .ok flag) ↔
      ∀ held, fields.lookup keyword = some held → held.IsBool := by
  simp only [readFlag_eq_ok]
  cases fields.lookup keyword <;> simp [Json.IsBool]

theorem readNodes_succeeds (definitions : List String) (here : Pointer)
    (fields : List (String × Json)) (keyword : String) :
    (∃ nodes, readNodes definitions here fields keyword = .ok nodes) ↔
      ∀ held, fields.lookup keyword = some held → held.IsObject ∧
        ∀ name value, held.field? name = some value →
          ∃ node,
            readNode definitions false ((here.child keyword).child name) value = .ok node := by
  simp only [readNodes_eq_ok]
  cases found : fields.lookup keyword with
  | none => simp
  | some held =>
    simp only [reduceCtorEq, false_and, false_or, Option.some.injEq, forall_eq']
    constructor
    · rintro ⟨nodes, _, entries, rfl, inner, read⟩
      refine ⟨Json.isObject_iff.2 ⟨entries, inner⟩, fun name value found => ?_⟩
      rw [Json.field?_eq_lookup inner] at found
      obtain ⟨node, -, read, -⟩ := node_of_readEntries read (Keyed.mem_of_lookup found)
      exact ⟨node, read⟩
    · rintro ⟨object, each⟩
      obtain ⟨entries, inner⟩ := Json.isObject_iff.1 object
      have all : ∀ entry ∈ entries, ∃ node,
          readNode definitions false ((here.child keyword).child entry.1) entry.2 = .ok node ∧
          (.ok () : Except Fault Unit) = .ok () := by
        intro entry member
        have held := Keyed.lookup_of_mem (Json.increasing_fields inner) member
        rw [← Json.field?_eq_lookup inner] at held
        obtain ⟨node, read⟩ := each _ _ held
        exact ⟨node, read, rfl⟩
      obtain ⟨nodes, read⟩ :=
        (readEntries_succeeds definitions (here.child keyword) (fun _ _ _ => .ok ()) entries).2 all
      exact ⟨nodes, held, entries, rfl, inner, read⟩

/-- The names among nodes that were read are the keys of the value they were read from. -/
theorem mem_keys_of_readNodes {definitions : List String} {here : Pointer} {value : Json}
    {fields : List (String × Json)} {keyword : String} {nodes : List (String × Node)}
    (object : value.fields? = some fields)
    (read : readNodes definitions here fields keyword = .ok nodes) (name : String) :
    name ∈ keys nodes ↔ ∃ held, value.field? keyword = some held ∧ held.HasKey name := by
  rw [Json.field?_eq_lookup object]
  rcases (readNodes_eq_ok ..).1 read with ⟨none, rfl⟩ | ⟨held, entries, found, inner, read⟩
  · simp [none, keys]
  · simp [found, keys_readEntries read, Json.hasKey_iff inner]

theorem hasGroup_iff {value : Json} {fields : List (String × Json)}
    (object : value.fields? = some fields) {group : FormGroup} :
    HasGroup value group ↔ group ∈ presentGroups fields := by
  simp only [HasGroup, Json.hasKey_iff object, mem_presentGroups]

theorem ref_of_readNode {definitions : List String} {isRoot : Bool} {here : Pointer} {value : Json}
    {node : Node} (read : readNode definitions isRoot here value = .ok node) (target : String) :
    node.form = .ref target ↔ value.field? "ref" = some (.string target) := by
  obtain ⟨fields, object, -, -, -, read⟩ := (readNode_eq_ok ..).1 read
  have form := (readForm_eq_ok _).1 read
  rw [Json.field?_eq_lookup object]
  constructor
  · intro same
    rw [same] at form
    cases form with
    | ref _ found _ => exact found
  · intro found
    have present : presentGroups fields = [.ref] :=
      present_of_lookup form.single (by decide) found
    rw [readForm_ref present found] at read
    obtain ⟨name, -, same, form⟩ := (readRef_eq_ok ..).1 read
    cases same
    exact form

/-- The check of a mapping entry asks what the grammar asks of it beside being a node. -/
theorem checkVariant_eq_ok_iff_isVariant {definitions : List String} {here : Pointer} {value : Json}
    {node : Node} (read : readNode definitions false here value = .ok node)
    (tag tagValue : String) (place : Pointer) :
    checkVariant tag tagValue place node = .ok () ↔ IsVariant tag value := by
  obtain ⟨fields, object, -, -, nullableRead, read⟩ := (readNode_eq_ok ..).1 read
  have formRead := (readForm_eq_ok _).1 read
  have keys_iff {keyword : String} {nodes : List (String × Node)}
      (read : readNodes definitions here fields keyword = .ok nodes) :
      tag ∉ keys nodes ↔ ∀ held, value.field? keyword = some held → ¬ held.HasKey tag := by
    rw [mem_keys_of_readNodes object read]
    simp only [not_exists, not_and]
  have nullable_iff : node.nullable = false ↔ value.field? "nullable" ≠ some (.bool true) := by
    rw [Json.field?_eq_lookup object]
    rcases (readFlag_eq_ok ..).1 nullableRead with ⟨none, flag⟩ | found
    · simp [none, flag]
    · simp [found]
  rw [checkVariant_eq_ok]
  constructor
  · rintro ⟨required, optional, additional, form, nullable, noRequired, noOptional⟩
    rw [form] at formRead
    cases formRead with
    | properties present some requiredRead optionalRead disjoint additionalRead =>
      simp only [← Json.hasKey_iff object] at some
      exact ⟨some, nullable_iff.1 nullable, (keys_iff requiredRead).1 noRequired,
        (keys_iff optionalRead).1 noOptional⟩
  · intro known
    have present : presentGroups fields = [.properties] := by
      rcases known.form with ⟨held, found⟩ | ⟨held, found⟩ <;>
        exact present_of_lookup formRead.single (by decide)
          ((Json.field?_eq_lookup object _).symm.trans found)
    obtain ⟨-, required, optional, additional, requiredRead, optionalRead, -, -, form⟩ :=
      (readForm_properties _ present).1 read
    exact ⟨required, optional, additional, form, nullable_iff.2 known.nullable,
      (keys_iff requiredRead).2 known.required, (keys_iff optionalRead).2 known.optional⟩

/-- What was read as a node obeys the rules. -/
theorem obeysRules_of_readNode {names : List String} {isRoot : Bool} {here : Pointer} {value : Json}
    {node : Node} (read : readNode names isRoot here value = .ok node) :
    ObeysRules (· ∈ names) isRoot value := by
  obtain ⟨fields, object, keywordsRead, metadataRead, nullableRead, read⟩ :=
    (readNode_eq_ok ..).1 read
  have single := ((readForm_eq_ok _).1 read).single
  have present {keyword : String} {held : Json} (group : FormGroup)
      (mine : keyword ∈ group.keywords) (found : value.field? keyword = some held) :
      presentGroups fields = [group] :=
    present_of_lookup single mine ((Json.field?_eq_lookup object _).symm.trans found)
  have lookup {keyword : String} {held : Json} (found : value.field? keyword = some held) :
      fields.lookup keyword = some held :=
    (Json.field?_eq_lookup object _).symm.trans found
  have known := (checkKeywords_eq_ok ..).1 keywordsRead
  constructor
  case object => exact Json.isObject_iff.2 ⟨fields, object⟩
  case keywords => exact fun key has => (known key ((Json.hasKey_iff object).1 has)).1
  case definitions => exact fun has => (known _ ((Json.hasKey_iff object).1 has)).2 rfl
  case metadata => exact (readMetadata_succeeds object here).1 ⟨_, metadataRead⟩
  case nullable =>
    exact fun held found => (readFlag_succeeds ..).1 ⟨_, nullableRead⟩ held (lookup found)
  case exclusive =>
    intro group other first second
    rw [hasGroup_iff object] at first second
    match groups : presentGroups fields with
    | [] => simp [groups] at first
    | [_] =>
      rw [groups, List.mem_singleton] at first second
      rw [first, second]
    | _ :: _ :: _ => simp [groups] at single
  case ref =>
    intro held found
    rw [readForm_ref (present .ref (by decide) found) (lookup found)] at read
    obtain ⟨name, defined, same, -⟩ := (readRef_eq_ok ..).1 read
    exact ⟨name, defined, same⟩
  case type =>
    intro held found
    rw [readForm_type (present .type (by decide) found) (lookup found)] at read
    obtain ⟨primitive, same, -⟩ := (readType_eq_ok ..).1 read
    exact ⟨primitive, same⟩
  case enum =>
    intro held found
    rw [readForm_enum (present .enum (by decide) found) (lookup found)] at read
    obtain ⟨values, nonempty, distinct, same, -⟩ := (readEnum_eq_ok ..).1 read
    exact ⟨values, nonempty, distinct, same⟩
  case properties =>
    intro held found
    obtain ⟨-, _, _, _, requiredRead, -⟩ :=
      (readForm_properties _ (present .properties (by decide) found)).1 read
    exact ((readNodes_succeeds ..).1 ⟨_, requiredRead⟩ held (lookup found)).1
  case optionalProperties =>
    intro held found
    obtain ⟨-, _, _, _, -, optionalRead, -⟩ :=
      (readForm_properties _ (present .properties (by decide) found)).1 read
    exact ((readNodes_succeeds ..).1 ⟨_, optionalRead⟩ held (lookup found)).1
  case disjoint =>
    intro required optional requiredFound optionalFound name inRequired inOptional
    obtain ⟨-, _, _, _, requiredRead, optionalRead, disjoint, -⟩ :=
      (readForm_properties _ (present .properties (by decide) requiredFound)).1 read
    exact disjoint name
      ((mem_keys_of_readNodes object optionalRead name).2 ⟨optional, optionalFound, inOptional⟩)
      ((mem_keys_of_readNodes object requiredRead name).2 ⟨required, requiredFound, inRequired⟩)
  case additional =>
    intro held found
    obtain ⟨some, _, _, _, -, -, -, additionalRead, -⟩ :=
      (readForm_properties _ (present .properties (by decide) found)).1 read
    simp only [← Json.hasKey_iff object] at some
    exact ⟨(readFlag_succeeds ..).1 ⟨_, additionalRead⟩ held (lookup found), some⟩
  case discriminator =>
    intro held found
    obtain ⟨tag, mapping, entries, _, tagFound, mappingFound, -⟩ :=
      (readForm_discriminator _ (present .discriminator (by decide) found)).1 read
    cases (lookup found).symm.trans tagFound
    exact ⟨⟨tag, rfl⟩, mapping, (Json.field?_eq_lookup object _).trans mappingFound⟩
  case mapping =>
    intro held found
    obtain ⟨tag, mapping, entries, _, tagFound, mappingFound, inner, nonempty, entriesRead, -⟩ :=
      (readForm_discriminator _ (present .discriminator (by decide) found)).1 read
    cases (lookup found).symm.trans mappingFound
    refine ⟨Json.isObject_iff.2 ⟨entries, inner⟩, ?_, tag,
      (Json.field?_eq_lookup object _).trans tagFound, fun tagValue entry found => ?_⟩
    · obtain ⟨⟨tagValue, entry⟩, member⟩ := List.exists_mem_of_ne_nil entries nonempty
      exact ⟨tagValue, (Json.hasKey_iff inner).2 (Keyed.mem_keys.2 ⟨entry, member⟩)⟩
    · rw [Json.field?_eq_lookup inner] at found
      obtain ⟨node, -, read, checked⟩ := node_of_readEntries entriesRead (Keyed.mem_of_lookup found)
      exact (checkVariant_eq_ok_iff_isVariant read ..).1 checked

/-- With a node, all nodes right below it were read. -/
theorem subnode_of_readNode {names : List String} {isRoot : Bool} {here : Pointer}
    {value child : Json} {node : Node} (read : readNode names isRoot here value = .ok node)
    (below : Subnode value child) :
    ∃ place childNode, readNode names false place child = .ok childNode := by
  obtain ⟨fields, object, -, -, -, read⟩ := (readNode_eq_ok ..).1 read
  have single := ((readForm_eq_ok _).1 read).single
  cases below with
  | item holds found =>
    rw [Json.field?_eq_lookup object] at found
    simp only [List.mem_cons, List.not_mem_nil, or_false] at holds
    rcases holds with rfl | rfl
    · have present : presentGroups fields = [.elements] :=
        present_of_lookup single (by decide) found
      rw [readForm_elements present found, bind_eq_ok] at read
      obtain ⟨item, read, -⟩ := read
      exact ⟨_, item, read⟩
    · have present : presentGroups fields = [.values] :=
        present_of_lookup single (by decide) found
      rw [readForm_values present found, bind_eq_ok] at read
      obtain ⟨item, read, -⟩ := read
      exact ⟨_, item, read⟩
  | @entry keyword name entries child holds found entry =>
    rw [Json.field?_eq_lookup object] at found
    simp only [List.mem_cons, List.not_mem_nil, or_false] at holds
    rcases holds with rfl | rfl | rfl
    · have present : presentGroups fields = [.properties] :=
        present_of_lookup single (by decide) found
      obtain ⟨-, _, _, _, requiredRead, -⟩ := (readForm_properties _ present).1 read
      obtain ⟨-, each⟩ := (readNodes_succeeds ..).1 ⟨_, requiredRead⟩ entries found
      exact ⟨_, each name child entry⟩
    · have present : presentGroups fields = [.properties] :=
        present_of_lookup single (by decide) found
      obtain ⟨-, _, _, _, -, optionalRead, -⟩ := (readForm_properties _ present).1 read
      obtain ⟨-, each⟩ := (readNodes_succeeds ..).1 ⟨_, optionalRead⟩ entries found
      exact ⟨_, each name child entry⟩
    · have present : presentGroups fields = [.discriminator] :=
        present_of_lookup single (by decide) found
      obtain ⟨_, _, _, _, -, mappingFound, inner, -, entriesRead, -⟩ :=
        (readForm_discriminator _ present).1 read
      cases found.symm.trans mappingFound
      rw [Json.field?_eq_lookup inner] at entry
      obtain ⟨node, -, read, -⟩ := node_of_readEntries entriesRead (Keyed.mem_of_lookup entry)
      exact ⟨_, node, read⟩

/-- Nothing that is read breaks the grammar, at any depth. -/
theorem isNode_of_readNode {names : List String} {isRoot : Bool} {here : Pointer} {value : Json}
    {node : Node} (read : readNode names isRoot here value = .ok node) :
    IsNode (· ∈ names) isRoot value := by
  refine .intro (obeysRules_of_readNode read) fun child below => ?_
  obtain ⟨place, childNode, read⟩ := subnode_of_readNode read below
  -- The node was read at some place of its own; only the weight of its value falls.
  have lighter := Grammar.weight_of_subnode below
  exact isNode_of_readNode read
termination_by value.weight

theorem single_of_exclusive {fields : List (String × Json)}
    (exclusive : ∀ group ∈ presentGroups fields, ∀ other ∈ presentGroups fields, group = other) :
    (presentGroups fields).length ≤ 1 := by
  have distinct : (presentGroups fields).Nodup :=
    (by decide : FormGroup.all.Nodup).sublist List.filter_sublist
  match groups : presentGroups fields with
  | [] => simp
  | [_] => simp
  | first :: second :: _ =>
    rw [groups] at exclusive distinct
    have same := exclusive first (by simp) second (by simp)
    simp [same] at distinct

section Rules

variable {names : List String} {isRoot : Bool} {value : Json} {fields : List (String × Json)}

theorem formRead_properties_of_rules (rules : ObeysRules (· ∈ names) isRoot value)
    (object : value.fields? = some fields) (here : Pointer)
    (subnodes : ∀ child, Subnode value child → ∀ place, ∃ node,
      readNode names false place child = .ok node)
    (present : presentGroups fields = [.properties]) : ∃ form, FormRead names here fields form := by
  have field {keyword : String} {held : Json} (found : fields.lookup keyword = some held) :
      value.field? keyword = some held := (Json.field?_eq_lookup object _).trans found
  have key {keyword : String} (has : value.HasKey keyword) : keyword ∈ keys fields :=
    (Json.hasKey_iff object).1 has
  obtain ⟨required, requiredRead⟩ := (readNodes_succeeds names here fields "properties").2
    fun held found => ⟨rules.properties held (field found), fun name child entry =>
      subnodes child (.entry (by decide) (field found) entry) _⟩
  obtain ⟨optional, optionalRead⟩ := (readNodes_succeeds names here fields "optionalProperties").2
    fun held found => ⟨rules.optionalProperties held (field found), fun name child entry =>
      subnodes child (.entry (by decide) (field found) entry) _⟩
  obtain ⟨additional, additionalRead⟩ := (readFlag_succeeds here fields "additionalProperties").2
    fun held found => (rules.additional held (field found)).1
  have some : "properties" ∈ keys fields ∨ "optionalProperties" ∈ keys fields := by
    rcases keyword_of_properties present with member | member | member
    · exact .inl member
    · exact .inr member
    · obtain ⟨held, found⟩ := Keyed.mem_keys_iff_lookup.1 member
      exact (rules.additional held (field found)).2.imp key key
  refine ⟨_, .properties present some requiredRead optionalRead ?_ additionalRead⟩
  intro name inOptional inRequired
  obtain ⟨_, optionalFound, inOptional⟩ :=
    (mem_keys_of_readNodes object optionalRead name).1 inOptional
  obtain ⟨_, requiredFound, inRequired⟩ :=
    (mem_keys_of_readNodes object requiredRead name).1 inRequired
  exact rules.disjoint _ _ requiredFound optionalFound name inRequired inOptional

theorem formRead_discriminator_of_rules (rules : ObeysRules (· ∈ names) isRoot value)
    (object : value.fields? = some fields) (here : Pointer)
    (subnodes : ∀ child, Subnode value child → ∀ place, ∃ node,
      readNode names false place child = .ok node)
    (present : presentGroups fields = [.discriminator]) :
    ∃ form, FormRead names here fields form := by
  have field {keyword : String} {held : Json} (found : fields.lookup keyword = some held) :
      value.field? keyword = some held := (Json.field?_eq_lookup object _).trans found
  have mapped : "mapping" ∈ keys fields := by
    rcases keyword_of_discriminator present with member | member
    · obtain ⟨held, found⟩ := Keyed.mem_keys_iff_lookup.1 member
      exact (Json.hasKey_iff object).1 (rules.discriminator held (field found)).2
    · exact member
  obtain ⟨mapping, found⟩ := Keyed.mem_keys_iff_lookup.1 mapped
  obtain ⟨isObject, ⟨tagValue, entry, entryFound⟩, tag, tagFound, variants⟩ :=
    rules.mapping mapping (field found)
  obtain ⟨entries, inner⟩ := Json.isObject_iff.1 isObject
  have nonempty : entries ≠ [] := by
    rintro rfl
    rw [Json.field?_eq_lookup inner] at entryFound
    cases entryFound
  have all : ∀ entry ∈ entries, ∃ node,
      readNode names false ((here.child "mapping").child entry.1) entry.2 = .ok node ∧
      checkVariant tag entry.1 ((here.child "mapping").child entry.1) node = .ok () := by
    intro entry member
    have held := Keyed.lookup_of_mem (Json.increasing_fields inner) member
    rw [← Json.field?_eq_lookup inner] at held
    obtain ⟨node, read⟩ := subnodes entry.2 (.entry (by decide) (field found) held)
      ((here.child "mapping").child entry.1)
    exact ⟨node, read, (checkVariant_eq_ok_iff_isVariant read ..).2 (variants _ _ held)⟩
  obtain ⟨nodes, read⟩ := (readEntries_succeeds ..).2 all
  rw [Json.field?_eq_lookup object] at tagFound
  exact ⟨_, .discriminator present tagFound found inner nonempty read⟩

/-- A node that obeys the rules has a form, when the nodes right below it are read anywhere. -/
theorem readForm_of_rules (rules : ObeysRules (· ∈ names) isRoot value)
    (object : value.fields? = some fields) (here : Pointer)
    (subnodes : ∀ child, Subnode value child → ∀ place, ∃ node,
      readNode names false place child = .ok node) :
    ∃ form, readForm names here fields = .ok form := by
  have single : (presentGroups fields).length ≤ 1 :=
    single_of_exclusive fun group first other second =>
      rules.exclusive group other ((hasGroup_iff object).2 first) ((hasGroup_iff object).2 second)
  have field {keyword : String} {held : Json} (found : fields.lookup keyword = some held) :
      value.field? keyword = some held := (Json.field?_eq_lookup object _).trans found
  simp only [readForm_eq_ok]
  match present : presentGroups fields with
  | [] => exact ⟨.empty, .empty present⟩
  | [.ref] =>
    obtain ⟨held, found⟩ := lookup_of_present present rfl
    obtain ⟨name, defined, rfl⟩ := rules.ref held (field found)
    exact ⟨_, .ref present found defined⟩
  | [.type] =>
    obtain ⟨held, found⟩ := lookup_of_present present rfl
    obtain ⟨primitive, rfl⟩ := rules.type held (field found)
    exact ⟨_, .type present found⟩
  | [.enum] =>
    obtain ⟨held, found⟩ := lookup_of_present present rfl
    obtain ⟨values, nonempty, distinct, rfl⟩ := rules.enum held (field found)
    exact ⟨_, .enum present found nonempty distinct⟩
  | [.elements] =>
    obtain ⟨held, found⟩ := lookup_of_present present rfl
    obtain ⟨item, read⟩ := subnodes held (.of_lookup object (by decide) found)
      (here.child "elements")
    exact ⟨_, .elements present found read⟩
  | [.values] =>
    obtain ⟨held, found⟩ := lookup_of_present present rfl
    obtain ⟨item, read⟩ := subnodes held (.of_lookup object (by decide) found)
      (here.child "values")
    exact ⟨_, .values present found read⟩
  | [.properties] => exact formRead_properties_of_rules rules object here subnodes present
  | [.discriminator] => exact formRead_discriminator_of_rules rules object here subnodes present
  | _ :: _ :: _ => simp [present] at single

end Rules

/-- Every node of the grammar is read, wherever it stands. -/
theorem readNode_of_isNode {names : List String} {isRoot : Bool} {value : Json}
    (valid : IsNode (· ∈ names) isRoot value) (here : Pointer) :
    ∃ node, readNode names isRoot here value = .ok node := by
  induction valid generalizing here with
  | @intro isRoot value rules _ ih =>
    obtain ⟨fields, object⟩ := Json.isObject_iff.1 rules.object
    have keywordsRead : checkKeywords isRoot here fields = .ok () :=
      (checkKeywords_eq_ok ..).2 fun key member => by
        have has := (Json.hasKey_iff object).2 member
        exact ⟨rules.keywords key has, fun same => rules.definitions (same ▸ has)⟩
    obtain ⟨metadata, metadataRead⟩ := (readMetadata_succeeds object here).2 rules.metadata
    obtain ⟨nullable, nullableRead⟩ := (readFlag_succeeds here fields "nullable").2
      fun held found => rules.nullable held ((Json.field?_eq_lookup object _).trans found)
    obtain ⟨form, formRead⟩ := readForm_of_rules rules object here ih
    exact ⟨⟨form, nullable, metadata⟩, (readNode_eq_ok ..).2
      ⟨fields, object, keywordsRead, metadataRead, nullableRead, formRead⟩⟩

section Documents

variable {document : Json} {fields definitions : List (String × Json)}

theorem defines_iff (object : document.fields? = some fields)
    (found : (fields.lookup "definitions" = none ∧ definitions = []) ∨
      ∃ value, fields.lookup "definitions" = some value ∧ value.fields? = some definitions)
    (name : String) (value : Json) :
    Grammar.Defines document name value ↔ (name, value) ∈ definitions := by
  simp only [Grammar.Defines, Json.field?_eq_lookup object]
  rcases found with ⟨none, rfl⟩ | ⟨held, found, inner⟩
  · simp [none]
  · simp only [found, Option.some.injEq, exists_eq_left', Json.field?_eq_lookup inner]
    exact Keyed.lookup_eq_some_iff_mem (Json.increasing_fields inner)

theorem increasing_definitions (found : (fields.lookup "definitions" = none ∧ definitions = []) ∨
      ∃ value, fields.lookup "definitions" = some value ∧ value.fields? = some definitions) :
    Keyed.Increasing definitions := by
  rcases found with ⟨-, rfl⟩ | ⟨held, found, inner⟩
  · exact .nil
  · exact Json.increasing_fields inner

theorem refersTo_iff (object : document.fields? = some fields)
    (found : (fields.lookup "definitions" = none ∧ definitions = []) ∨
      ∃ value, fields.lookup "definitions" = some value ∧ value.fields? = some definitions)
    {names : List String} {here : Pointer} {nodes : List (String × Node)}
    (read : readEntries names here (fun _ _ _ => .ok ()) definitions = .ok nodes)
    (name target : String) :
    RefersTo nodes name target ↔ Grammar.RefersTo document name target := by
  have increasing : Keyed.Increasing nodes := by
    rw [Keyed.increasing_iff_keys, keys_readEntries read, ← Keyed.increasing_iff_keys]
    exact increasing_definitions found
  simp only [RefersTo, Grammar.RefersTo, defines_iff object found,
    Keyed.lookup_eq_some_iff_mem increasing]
  constructor
  · rintro ⟨node, member, form⟩
    obtain ⟨value, inside, read, -⟩ := entry_of_readEntries read member
    exact ⟨value, inside, (ref_of_readNode read target).1 form⟩
  · rintro ⟨value, inside, reference⟩
    obtain ⟨node, member, read, -⟩ := node_of_readEntries read inside
    exact ⟨node, member, (ref_of_readNode read target).2 reference⟩

end Documents

/-- The reader accepts exactly the documents of the grammar. -/
theorem ofJson_succeeds_iff_isDocument (document : Json) :
    (∃ schema, ofJson document = .ok schema) ↔ IsDocument document := by
  simp only [ofJson_eq_ok]
  constructor
  · rintro ⟨schema, fields, definitions, object, found, rootRead, read, chains⟩
    have defined : Grammar.Defined document = (· ∈ keys definitions) := by
      funext name
      simp only [Grammar.Defined, defines_iff object found, Keyed.mem_keys]
    constructor
    case root => exact defined ▸ isNode_of_readNode rootRead
    case object =>
      intro held definitionsFound
      rw [Json.field?_eq_lookup object] at definitionsFound
      rcases found with ⟨none, -⟩ | ⟨_, found, inner⟩
      · cases none.symm.trans definitionsFound
      · cases found.symm.trans definitionsFound
        exact Json.isObject_iff.2 ⟨definitions, inner⟩
    case definitions =>
      intro name value defines
      obtain ⟨node, -, read, -⟩ :=
        node_of_readEntries read ((defines_iff object found name value).1 defines)
      exact defined ▸ isNode_of_readNode read
    case acyclic =>
      have same : Grammar.RefersTo document = RefersTo schema.definitions := by
        funext name target
        exact propext (refersTo_iff object found read name target).symm
      exact same ▸ checkRefChains_eq_ok.1 chains
  · rintro ⟨root, object, each, acyclic⟩
    obtain ⟨fields, isObject⟩ := Json.isObject_iff.1 root.rules.object
    have found : ∃ definitions, (fields.lookup "definitions" = none ∧ definitions = []) ∨
        ∃ value, fields.lookup "definitions" = some value ∧ value.fields? = some definitions := by
      cases found : fields.lookup "definitions" with
      | none => exact ⟨[], .inl ⟨rfl, rfl⟩⟩
      | some held =>
        obtain ⟨definitions, inner⟩ :=
          Json.isObject_iff.1 (object held ((Json.field?_eq_lookup isObject _).trans found))
        exact ⟨definitions, .inr ⟨held, rfl, inner⟩⟩
    obtain ⟨definitions, found⟩ := found
    have defined : Grammar.Defined document = (· ∈ keys definitions) := by
      funext name
      simp only [Grammar.Defined, defines_iff isObject found, Keyed.mem_keys]
    rw [defined] at each root
    obtain ⟨rootNode, rootRead⟩ := readNode_of_isNode root .root
    have all : ∀ entry ∈ definitions, ∃ node, readNode (keys definitions) false
        ((Pointer.root.child "definitions").child entry.1) entry.2 = .ok node ∧
        (.ok () : Except Fault Unit) = .ok () := by
      intro entry member
      obtain ⟨node, read⟩ := readNode_of_isNode
        (each entry.1 entry.2 ((defines_iff isObject found _ _).2 member))
        ((Pointer.root.child "definitions").child entry.1)
      exact ⟨node, read, rfl⟩
    obtain ⟨nodes, read⟩ := (readEntries_succeeds (keys definitions)
      (Pointer.root.child "definitions") (fun _ _ _ => .ok ()) definitions).2 all
    have same : RefersTo nodes = Grammar.RefersTo document := by
      funext name target
      exact propext (refersTo_iff isObject found read name target)
    exact ⟨⟨rootNode, nodes⟩, fields, definitions, isObject, found, rootRead, read,
      checkRefChains_eq_ok.2 (same ▸ acyclic)⟩

end SchemaBindings.Schema
