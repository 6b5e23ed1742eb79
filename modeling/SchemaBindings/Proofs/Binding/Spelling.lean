import SchemaBindings.Proofs.Binding.Drafts
import SchemaBindings.Proofs.Binding.MapMetadata
import SchemaBindings.Proofs.Catalog.Consistent
import SchemaBindings.Proofs.Naming.Legal

/-! What a draft is spelled with, beside wire names and descriptions: identifiers, which are resolved
names, and texts that stand for types, which are resolved names or come from hints. -/

namespace SchemaBindings.Binding

open Naming (Names)

/-- The texts that stand for a type or hold its items. -/
def TypeExpr.texts : TypeExpr → List String
  | .verbatim text => [text]
  | .elements container item _ => container.toList ++ item.texts
  | .values container item _ => container.toList ++ item.texts
  | .declared _ reference _ => [reference.text]
  | _ => []

section Bodies

variable {μ : Type}

def Body.texts (body : Body μ) : List String :=
  body.types.flatMap TypeExpr.texts ++
    (body.references ++ body.base?.toList).map Reference.text

def Body.fields : Body μ → List (Field μ)
  | .record fields _ => fields
  | .variant _ _ fields _ => fields
  | _ => []

/-- The identifiers inside a body. -/
def Body.names : Body μ → List String
  | .record fields _ => fields.map Field.name
  | .variant _ _ fields _ => fields.map Field.name
  | .enumeration choices => choices.map Choice.constant
  | .union _ cases => cases.map Case.member ++ cases.map Case.constant
  | .wrapper _ => []

end Bodies

/-- Every identifier of a draft has the one property, and every text for a type the other. -/
structure Draft.Spelled {ε μ : Type} (P Q : String → Prop) (d : Draft ε μ) : Prop where
  name : P d.name
  names : ∀ name ∈ d.body.names, P name
  texts : ∀ text ∈ d.body.texts, Q text

/-- Every text of a hint has the property. -/
def HintTexts (keys : List String) (Q : String → Prop) (metadata : Metadata) : Prop :=
  ∀ key ∈ keys, ∀ text, metadata.hint? key = some (.string text) → Q text

instance (keys : List String) (Q : String → Prop) [DecidablePred Q] (metadata : Metadata) :
    Decidable (HintTexts keys Q metadata) :=
  have each (value : Option Json) : Decidable (∀ text, value = some (.string text) → Q text) :=
    match value with
    | some (.string text) => decidable_of_iff (Q text) (by simp)
    | none | some .null | some (.bool _) | some (.number _) | some (.array _) | some (.object _) =>
      isTrue (by simp)
  inferInstanceAs (Decidable (∀ key ∈ keys, ∀ text, metadata.hint? key = some (.string text) →
    Q text))

section Spelling

variable {ε μ : Type} {rules : Rules ε μ} {keys : HintKeys} {c : NamedCatalog}
  {P Q : String → Prop}

/-- What the texts of a catalog for its types are made of has the property. -/
structure Texts (keys : HintKeys) (Q : String → Prop) (c : NamedCatalog) : Prop where
  named : ∀ id, Q (c.typeName id)
  declarations : ∀ d ∈ c.catalog.declarations, HintTexts keys.all Q d.metadata
  uses : ∀ use ∈ c.catalog.uses, HintTexts keys.all Q use.metadata

/-- The texts of a catalog come from its names and from the hints of the nodes of its schema. -/
theorem texts_of_mirrors {schema : Schema} {rootName : String} {catalog : Catalog}
    (mirrors : Catalog.Mirrors schema rootName catalog)
    (hinted : ∀ node, Schema.Contains schema node → HintTexts keys.all Q node.metadata)
    {names : List Names} (named : ∀ id, Q (NamedCatalog.typeName ⟨catalog, names⟩ id)) :
    Texts keys Q ⟨catalog, names⟩ :=
  ⟨named, (mirrors.forall_metadata hinted).1, (mirrors.forall_metadata hinted).2⟩

theorem typeName_of_each (empty : P "") (each : ∀ n ∈ c.names, n.Each P) (id : Nat) :
    P (c.typeName id) := by
  unfold NamedCatalog.typeName
  cases found : c.names[id]? with
  | none => exact empty
  | some names => exact (each names (List.mem_of_getElem? found)).type

theorem text_of_reference (texts : Texts keys Q c) {id : Nat} {reference : Reference}
    (known : c.reference keys id = .ok reference) : Q reference.text := by
  unfold NamedCatalog.reference at known
  split at known
  · cases known
    exact texts.named id
  · rename_i d declared
    obtain ⟨hint, read, known⟩ := (bind_eq_ok ..).1 known
    cases hint with
    | none =>
      cases known
      exact texts.named id
    | some text =>
      cases known
      exact texts.declarations d (List.mem_of_getElem? declared) _ List.mem_cons_self _
        (string?_eq_some.1 read)

theorem texts_of_ofUse (texts : Texts keys Q c) {use : TypeUse}
    (hinted : ∀ level ∈ use.levels, HintTexts keys.all Q level.metadata) {type : TypeExpr}
    (read : TypeExpr.ofUse keys c use = .ok type) : ∀ text ∈ type.texts, Q text := by
  have ofContainer {use : TypeUse} (own : HintTexts keys.all Q use.metadata) {hasItems : Bool}
      {container : Option String}
      (held : keys.container? hasItems use.metadata use.pointer = .ok container) :
      ∀ text ∈ container.toList, Q text := by
    intro text member
    obtain rfl := Option.mem_toList.1 member
    obtain ⟨key, known, found⟩ := hint?_of_container? held
    exact own key (List.mem_cons_of_mem _ (Option.mem_toList.2 known)) text found
  induction type generalizing use with
  | verbatim text =>
    cases typeOf_of_ofUse read with
    | verbatim hint =>
      exact List.forall_mem_singleton.2
        (hinted _ (Catalog.self_mem_levels _) _ List.mem_cons_self _ hint)
    | built _ _ built => cases built
  | elements container item nullable ih =>
    cases typeOf_of_ofUse read with
    | built _ held built =>
      cases built with
      | elements kind itemRead =>
        rw [Catalog.levels_of_item (.inl kind)] at hinted
        obtain ⟨own, later⟩ := List.forall_mem_cons.1 hinted
        exact List.forall_mem_append.2 ⟨ofContainer own held, ih later itemRead⟩
  | values container item nullable ih =>
    cases typeOf_of_ofUse read with
    | built _ held built =>
      cases built with
      | values kind itemRead =>
        rw [Catalog.levels_of_item (.inr kind)] at hinted
        obtain ⟨own, later⟩ := List.forall_mem_cons.1 hinted
        exact List.forall_mem_append.2 ⟨ofContainer own held, ih later itemRead⟩
  | declared id reference nullable =>
    exact List.forall_mem_singleton.2 (text_of_reference texts (direct?_of_ofUse read).2)
  | _ => exact List.forall_mem_nil _

theorem texts_of_body (texts : Texts rules.keys Q c) {names : Names} {shape : Shape}
    (hinted : ∀ use ∈ shape.uses, ∀ level ∈ use.levels, HintTexts rules.keys.all Q level.metadata)
    {body : Body μ} (bodyOf : BodyOf rules c names shape body) : ∀ text ∈ body.texts, Q text := by
  have ofFields {members : List Member} {fields : List (Field μ)}
      (part : members.map Member.type = shape.uses)
      (read : rules.fields c (members.zip names.members) = .ok fields) :
      ∀ text ∈ (fields.map Field.type).flatMap TypeExpr.texts, Q text := by
    intro text member
    obtain ⟨type, typed, inside⟩ := List.mem_flatMap.1 member
    obtain ⟨f, listed, rfl⟩ := List.mem_map.1 typed
    obtain ⟨entry, known, typeRead⟩ := type_of_mem_fields read listed
    have used : entry.1.type ∈ shape.uses := by
      rw [← part]
      exact List.mem_map_of_mem (List.of_mem_zip known).1
    exact texts_of_ofUse texts (hinted _ used) typeRead text inside
  cases bodyOf with
  | record read =>
    exact List.forall_mem_append.2 ⟨ofFields rfl read, List.forall_mem_nil _⟩
  | enumeration => exact List.forall_mem_nil _
  | @union tag variants cases' read =>
    refine List.forall_mem_append.2 ⟨List.forall_mem_nil _, List.forall_mem_map.2 ?_⟩
    refine List.forall_mem_append.2 ⟨List.forall_mem_map.2 fun k listed => ?_,
      List.forall_mem_nil _⟩
    obtain ⟨entry, -, case⟩ := caseOf_of_mem_cases read listed
    exact text_of_reference texts case.reference
  | variant known read =>
    refine List.forall_mem_append.2 ⟨ofFields rfl read, List.forall_mem_map.2 ?_⟩
    exact List.forall_mem_append.2 ⟨List.forall_mem_nil _,
      List.forall_mem_singleton.2 (text_of_reference texts known)⟩
  | wrapper read =>
    refine List.forall_mem_append.2 ⟨?_, List.forall_mem_nil _⟩
    rw [Body.types, List.flatMap_singleton]
    exact texts_of_ofUse texts (hinted _ List.mem_cons_self) read

theorem names_of_body {names : Names} (each : names.Each P) {shape : Shape} {body : Body μ}
    (bodyOf : BodyOf rules c names shape body) : ∀ name ∈ body.names, P name := by
  have ofFields {members : List Member} {fields : List (Field μ)}
      (read : rules.fields c (members.zip names.members) = .ok fields) :
      ∀ name ∈ fields.map Field.name, P name := by
    rw [map_name_fields read]
    exact fun name member => each.members name ((map_snd_zip_sublist ..).subset member)
  cases bodyOf with
  | record read => exact ofFields read
  | variant _ read => exact ofFields read
  | wrapper => exact List.forall_mem_nil _
  | enumeration =>
    refine List.forall_mem_map.2 fun choice listed => ?_
    obtain ⟨entry, inside, rfl⟩ := List.mem_map.1 listed
    exact each.constants _ (List.of_mem_zip inside).2
  | union read =>
    refine List.forall_mem_append.2 ⟨List.forall_mem_map.2 fun k listed => ?_,
      List.forall_mem_map.2 fun k listed => ?_⟩
    · obtain ⟨entry, inside, case⟩ := caseOf_of_mem_cases read listed
      have own : k.member = entry.2.1 := congrArg Prod.fst case.names
      rw [own]
      exact each.members _ (List.of_mem_zip (List.of_mem_zip inside).2).1
    · obtain ⟨entry, inside, case⟩ := caseOf_of_mem_cases read listed
      have own : k.constant = entry.2.2 := congrArg Prod.snd case.names
      rw [own]
      exact each.constants _ (List.of_mem_zip (List.of_mem_zip inside).2).2

theorem spelled_of_drafts (texts : Texts rules.keys Q c) (each : ∀ n ∈ c.names, n.Each P)
    {drafts : List (Draft ε μ)} (read : rules.drafts c = .ok drafts) :
    ∀ d ∈ drafts, d.Spelled P Q := by
  intro d member
  obtain ⟨id, declaration, names, declared, named, drafted⟩ := exists_of_mem_drafts read member
  obtain ⟨-, name, bodyRead⟩ := draft_eq_ok drafted
  have bodyOf := bodyOf_of_body bodyRead
  have own := each names (List.mem_of_getElem? named)
  have inside := List.mem_of_getElem? declared
  refine ⟨name ▸ own.type, names_of_body own bodyOf, texts_of_body texts ?_ bodyOf⟩
  exact fun use used level listed =>
    texts.uses level (Catalog.mem_uses_of_mem_shape inside used listed)

end Spelling

end SchemaBindings.Binding
