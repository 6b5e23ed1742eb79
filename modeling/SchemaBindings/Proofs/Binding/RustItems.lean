import SchemaBindings.Binding.RustModule
import SchemaBindings.Proofs.Binding.ByValue
import SchemaBindings.Proofs.Naming.Capital

/-! The items of a Rust module as they are built, with the types that stand in them. Printing gives
back the module; what an item mentions by value can be read off it. -/

namespace SchemaBindings.Binding.RustModule

open Relation (TransGen)

/-- A type. A hint is a text of the schema, all else is written by the language's own rules. -/
inductive RustType
  | hint (text : String)
  | path (text : String)
  | option (inner : RustType)
  | box (inner : RustType)
  | list (container : Option String) (item : RustType)
  | map (container : Option String) (item : RustType)

namespace RustType

def text : RustType → String
  | hint text => text
  | path text => text
  | option inner => "Option<" ++ inner.text ++ ">"
  | box inner => "Box<" ++ inner.text ++ ">"
  | list container item => container.getD "Vec" ++ "<" ++ item.text ++ ">"
  | map container item =>
    container.getD "std::collections::BTreeMap" ++ "<String, " ++ item.text ++ ">"

def hinted (hints : Bool) (text : String) : List String := if hints then [text] else []

/-- The names that a type mentions by value, those outside of every box and container. The texts of
hints count only where `hints` says so. -/
def byValue (hints : Bool) : RustType → List String
  | hint text => hinted hints text
  | path text => [text]
  | option inner => "Option" :: inner.byValue hints
  | box _ => ["Box"]
  | list none _ => ["Vec"]
  | map none _ => ["std::collections::BTreeMap"]
  | list (some container) _ | map (some container) _ => hinted hints container

def optional (nullable : Bool) (type : RustType) : RustType :=
  if nullable then .option type else type

def ofReference : Reference → RustType
  | .name text => .path text
  | .replacement text => .hint text

def ofExpr (boxed : Nat → Bool) : TypeExpr → RustType
  | .verbatim text => .hint text
  | .anything => .path "serde_json::Value"
  | .primitive p nullable => optional nullable (.path (primitiveText p))
  | .elements container item nullable =>
    optional nullable (.list container (ofExpr (fun _ => false) item))
  | .values container item nullable =>
    optional nullable (.map container (ofExpr (fun _ => false) item))
  | .declared id reference nullable =>
    optional nullable (if boxed id then .box (ofReference reference) else ofReference reference)

def ofField (boxed : Nat → Bool) (f : Field Unit) : RustType :=
  let type := ofExpr boxed f.type
  optional (!f.required && !"Option<".isPrefixOf type.text) type

theorem text_optional (nullable : Bool) (type : RustType) :
    (optional nullable type).text = RustModule.optional nullable type.text := by
  cases nullable <;> rfl

theorem text_ofReference (reference : Reference) :
    (ofReference reference).text = reference.text := by
  cases reference <;> rfl

theorem text_ofExpr (boxed : Nat → Bool) (type : TypeExpr) :
    (ofExpr boxed type).text = typeText boxed type := by
  induction type generalizing boxed with
  | verbatim text => rfl
  | anything => rfl
  | primitive p nullable => simp [ofExpr, typeText, text_optional, text]
  | elements container item nullable ih => simp [ofExpr, typeText, text_optional, text, ih]
  | values container item nullable ih => simp [ofExpr, typeText, text_optional, text, ih]
  | declared id reference nullable =>
    simp only [ofExpr, typeText, text_optional]
    split <;> simp [text, text_ofReference]

theorem text_ofField (boxed : Nat → Bool) (f : Field Unit) :
    (ofField boxed f).text = fieldType boxed f := by
  simp only [ofField, fieldType, text_optional, text_ofExpr]

end RustType

/-- What is written before a part, its name, and what it holds. -/
structure Part (α : Type) where
  lead : List String
  name : String
  holds : α

def Part.fieldLines (p : Part RustType) : List String :=
  p.lead ++ ["    pub " ++ p.name ++ ": " ++ p.holds.text ++ ","]

def Part.constantLines (p : Part Unit) : List String := p.lead ++ ["    " ++ p.name ++ ","]

def Part.caseLines (p : Part RustType) : List String :=
  p.lead ++ ["    " ++ p.name ++ "(" ++ p.holds.text ++ "),"]

inductive ItemBody
  | fields (fields : List (Part RustType))
  | constants (constants : List (Part Unit))
  | cases (cases : List (Part RustType))
  | tuple (inner : RustType)

structure Item where
  lead : List String
  name : String
  body : ItemBody

namespace Item

def ofField (boxed : Nat → Bool) (f : Field Unit) : Part RustType where
  lead := lineComment "    /// " f.described ++
    (if f.name = f.wireName then [] else [renameLine "    " f.wireName]) ++
    (if f.required then []
      else ["    #[serde(default, skip_serializing_if = \"Option::is_none\")]"])
  name := f.name
  holds := .ofField boxed f

def ofChoice (k : Choice) : Part Unit :=
  ⟨lineComment "    /// " k.described ++ [renameLine "    " k.value], k.constant, ()⟩

def ofCase (k : Case) : Part RustType :=
  ⟨[renameLine "    " k.tagValue], k.constant, .ofReference k.reference⟩

def bodyOf (boxed : Nat → Bool) : Body Unit → ItemBody
  | .record fields _ => .fields (fields.map (ofField boxed))
  | .variant _ _ fields _ => .fields (fields.map (ofField boxed))
  | .enumeration choices => .constants (choices.map ofChoice)
  | .union _ cases => .cases (cases.map ofCase)
  | .wrapper inner => .tuple (.ofExpr boxed inner)

def attributes : Body Unit → List String
  | .record _ additional => if additional then [] else ["#[serde(deny_unknown_fields)]"]
  | .union tag _ => ["#[serde(tag = \"" ++ Text.asciiEscaped tag ++ "\")]"]
  | .wrapper _ => ["#[serde(transparent)]"]
  | _ => []

def ofDraft (edges : List (List Nat)) (d : Draft (List String) Unit) : Item :=
  ⟨lineComment "/// " d.described ++ [deriveLine d.extra] ++ attributes d.body, d.name,
    bodyOf (closesCycle edges d.id) d.body⟩

def bodyLines (name : String) : ItemBody → List String
  | .fields fields =>
    ["pub struct " ++ name ++ " \x7b"] ++ fields.flatMap Part.fieldLines ++ ["\x7d"]
  | .constants constants =>
    ["pub enum " ++ name ++ " \x7b"] ++ constants.flatMap Part.constantLines ++ ["\x7d"]
  | .cases cases => ["pub enum " ++ name ++ " \x7b"] ++ cases.flatMap Part.caseLines ++ ["\x7d"]
  | .tuple inner => ["pub struct " ++ name ++ "(pub " ++ inner.text ++ ");"]

def lines (i : Item) : List String := i.lead ++ bodyLines i.name i.body ++ [""]

def types (i : Item) : List RustType :=
  match i.body with
  | .fields fields => fields.map Part.holds
  | .cases cases => cases.map Part.holds
  | .tuple inner => [inner]
  | .constants _ => []

def byValue (hints : Bool) (i : Item) : List String := i.types.flatMap (RustType.byValue hints)

theorem flatMap_fieldLines (boxed : Nat → Bool) (fields : List (Field Unit)) :
    (fields.map (ofField boxed)).flatMap Part.fieldLines =
      fields.flatMap (RustModule.fieldLines boxed) := by
  rw [List.flatMap_map]
  congr 1
  funext f
  rw [Part.fieldLines, ofField, RustType.text_ofField]
  rfl

theorem flatMap_caseLines (cases : List Case) :
    (cases.map ofCase).flatMap Part.caseLines = cases.flatMap RustModule.caseLines := by
  rw [List.flatMap_map]
  congr 1
  funext k
  rw [Part.caseLines, ofCase, RustType.text_ofReference]
  rfl

theorem flatMap_constantLines (choices : List Choice) :
    (choices.map ofChoice).flatMap Part.constantLines = choices.flatMap choiceLines := by
  rw [List.flatMap_map]
  congr 1
  funext k
  simp [Part.constantLines, ofChoice, choiceLines]

theorem lines_ofDraft (edges : List (List Nat)) (d : Draft (List String) Unit) :
    (ofDraft edges d).lines = itemLines edges d := by
  obtain ⟨id, name, described, body, extra⟩ := d
  cases body with
  | record fields additional =>
    simp [ofDraft, lines, itemLines, attributes, bodyOf, bodyLines, RustModule.bodyLines,
      structLines, flatMap_fieldLines]
  | variant base tagValue fields additional =>
    simp [ofDraft, lines, itemLines, attributes, bodyOf, bodyLines, RustModule.bodyLines,
      structLines, flatMap_fieldLines]
  | enumeration choices =>
    simp [ofDraft, lines, itemLines, attributes, bodyOf, bodyLines, RustModule.bodyLines,
      flatMap_constantLines]
  | union tag cases =>
    simp [ofDraft, lines, itemLines, attributes, bodyOf, bodyLines, RustModule.bodyLines,
      flatMap_caseLines]
  | wrapper inner =>
    simp [ofDraft, lines, itemLines, attributes, bodyOf, bodyLines, RustModule.bodyLines,
      RustType.text_ofExpr]

end Item

def moduleItems (c : NamedCatalog) : Except Unsupported (List Item) := do
  return (← rules.drafts c).map (Item.ofDraft (holdings c.catalog))

def moduleFile (items : List Item) : File :=
  ⟨"mod.rs", Text.unlines ["//! " ++ notice, ""] ++ Text.unlines (items.flatMap Item.lines)⟩

/-- A module is the print of its items. -/
theorem files_eq_ok (c : NamedCatalog) (files' : List File) :
    files c = .ok files' ↔ ∃ items, moduleItems c = .ok items ∧ files' = [moduleFile items] := by
  have printed (drafts : List (Draft (List String) Unit)) :
      (drafts.map (Item.ofDraft (holdings c.catalog))).flatMap Item.lines =
        drafts.flatMap (itemLines (holdings c.catalog)) := by
    simp only [List.flatMap_map, Item.lines_ofDraft]
  simp only [files, items, moduleItems, bind_eq_ok, pure_eq_ok, moduleFile]
  constructor
  · rintro ⟨_, ⟨drafts, read, rfl⟩, rfl⟩
    exact ⟨_, ⟨drafts, read, rfl⟩, by rw [printed]⟩
  · rintro ⟨_, ⟨drafts, read, rfl⟩, rfl⟩
    exact ⟨_, ⟨drafts, read, rfl⟩, by rw [printed]⟩

section Mentions

/-- What the language itself calls its types. -/
def ownWords : List String :=
  ["Option", "Box", "Vec", "std::collections::BTreeMap", "serde_json::Value"] ++
    Primitive.all.map primitiveText

theorem primitiveText_mem_ownWords (p : Primitive) : primitiveText p ∈ ownWords := by
  cases p <;> decide

theorem reserved_of_mem_ownWords :
    ∀ word ∈ ownWords, word ∈ naming.reservedTypeNames ∨ ¬ Naming.Capital word := by
  decide

theorem byValue_optional {nullable : Bool} {type : RustType} {name : String}
    (mentioned : name ∈ (RustType.optional nullable type).byValue false) :
    name ∈ ownWords ∨ name ∈ type.byValue false := by
  cases nullable with
  | false => exact .inr mentioned
  | true =>
    rcases List.mem_cons.1 mentioned with rfl | inner
    · exact .inl (by decide)
    · exact .inr inner

theorem byValue_ofReference {reference : Reference} {name : String}
    (mentioned : name ∈ (RustType.ofReference reference).byValue false) :
    reference = .name name := by
  cases reference with
  | name text => rw [List.mem_singleton.1 mentioned]
  | replacement text => cases mentioned

/-- Beside the words of the language, only a declaration without a box is mentioned. -/
theorem byValue_ofExpr {boxed : Nat → Bool} {type : TypeExpr} {name : String}
    (mentioned : name ∈ (RustType.ofExpr boxed type).byValue false) :
    name ∈ ownWords ∨
      ∃ id nullable, type = .declared id (.name name) nullable ∧ boxed id = false := by
  cases type with
  | verbatim text => cases mentioned
  | anything =>
    obtain rfl := List.mem_singleton.1 mentioned
    exact .inl (by decide)
  | primitive p nullable =>
    rcases byValue_optional mentioned with own | inner
    · exact .inl own
    · obtain rfl := List.mem_singleton.1 inner
      exact .inl (primitiveText_mem_ownWords p)
  | elements container item nullable =>
    rcases byValue_optional mentioned with own | inner
    · exact .inl own
    · cases container with
      | some text => cases inner
      | none =>
        obtain rfl := List.mem_singleton.1 inner
        exact .inl (by decide)
  | values container item nullable =>
    rcases byValue_optional mentioned with own | inner
    · exact .inl own
    · cases container with
      | some text => cases inner
      | none =>
        obtain rfl := List.mem_singleton.1 inner
        exact .inl (by decide)
  | declared id reference nullable =>
    rcases byValue_optional mentioned with own | inner
    · exact .inl own
    · split at inner
      · obtain rfl := List.mem_singleton.1 inner
        exact .inl (by decide)
      · rename_i free
        exact .inr ⟨id, nullable, by rw [byValue_ofReference inner], by simpa using free⟩

theorem mayWrite_of_byValue {edges : List (List Nat)} {d : Draft (List String) Unit} {name : String}
    (mentioned : name ∈ (Item.ofDraft edges d).byValue false) : MayWrite ownWords edges d name := by
  have ofFields {fields : List (Field Unit)}
      (mentioned : name ∈ ((fields.map (Item.ofField (closesCycle edges d.id))).map
        Part.holds).flatMap (RustType.byValue false)) :
      name ∈ ownWords ∨ ∃ id nullable, .declared id (.name name) nullable ∈ fields.map Field.type ∧
        closesCycle edges d.id id = false := by
    obtain ⟨type, inside, mentioned⟩ := List.mem_flatMap.1 mentioned
    simp only [List.map_map, List.mem_map, Function.comp_apply] at inside
    obtain ⟨f, inside, rfl⟩ := inside
    rcases byValue_optional mentioned with own | inner
    · exact .inl own
    · refine (byValue_ofExpr inner).imp id ?_
      rintro ⟨id, nullable, same, free⟩
      exact ⟨id, nullable, List.mem_map.2 ⟨f, inside, same⟩, free⟩
  obtain ⟨id, draftName, described, body, extra⟩ := d
  cases body with
  | record fields additional => exact (ofFields mentioned).imp (fun own => own) .inl
  | variant base tagValue fields additional => exact (ofFields mentioned).imp (fun own => own) .inl
  | enumeration choices => cases mentioned
  | union tag cases =>
    obtain ⟨type, inside, mentioned⟩ := List.mem_flatMap.1 mentioned
    obtain ⟨part, listed, rfl⟩ := List.mem_map.1 inside
    obtain ⟨k, known, rfl⟩ := List.mem_map.1 listed
    exact .inr (.inr (List.mem_map.2 ⟨k, known, byValue_ofReference mentioned⟩))
  | wrapper inner =>
    obtain ⟨type, inside, mentioned⟩ := List.mem_flatMap.1 mentioned
    obtain rfl := List.mem_singleton.1 inside
    refine (byValue_ofExpr mentioned).imp (fun own => own) ?_
    rintro ⟨id, nullable, rfl, free⟩
    exact .inl ⟨id, nullable, List.mem_singleton_self _, free⟩

/-- The first item mentions the second by value. -/
def Mentions (hints : Bool) (items : List Item) : Item → Item → Prop :=
  Binding.Mentions Item.name (Item.byValue hints) items

/-- No item of a module is part of itself by value, the texts of hints apart. -/
theorem acyclic_mentions {c : NamedCatalog} (linked : c.catalog.Linked)
    (named : c.names = Naming.resolve naming c.catalog)
    (distinct : Naming.Distinct naming c.catalog c.names) {items : List Item}
    (made : moduleItems c = .ok items) (i : Item) : ¬ TransGen (Mentions false items) i i := by
  obtain ⟨drafts, read, same⟩ := (bind_eq_ok ..).1 made
  obtain rfl := (pure_eq_ok ..).1 same
  have foreign : ∀ n ∈ c.names, n.type ∉ ownWords := by
    intro n inside own
    rcases reserved_of_mem_ownWords _ own with reserved | small
    · exact distinct.unreserved n inside reserved
    · exact small (Naming.capital_type_resolve rfl c.catalog (named ▸ inside))
  exact acyclic_mentions_of_mayWrite linked distinct read foreign
    (Item.ofDraft (holdings c.catalog)) Item.name (Item.byValue false) (fun _ => rfl)
    (fun d text => mayWrite_of_byValue) i

end Mentions

end SchemaBindings.Binding.RustModule
