import SchemaBindings.Binding.GoPackage
import SchemaBindings.Proofs.Binding.ByValue
import SchemaBindings.Proofs.Naming.Capital

/-! The type declarations of a Go package as they are built, with the types that stand in them.
Printing gives back the package; what a declaration mentions by value can be read off it. -/

namespace SchemaBindings.Binding.GoPackage

open Relation (TransGen)

/-- A type. A hint is a text of the schema, all else is written by the language's own rules. -/
inductive GoType
  | hint (text : String)
  | name (text : String)
  | pointer (target : GoType)
  | slice (item : GoType)
  | map (item : GoType)
  | list (container : String) (item : GoType)
  | keyed (container : String) (item : GoType)

namespace GoType

def text : GoType → String
  | hint text => text
  | name text => text
  | pointer target => "*" ++ target.text
  | slice item => "[]" ++ item.text
  | map item => "map[string]" ++ item.text
  | list container item => container ++ "[" ++ item.text ++ "]"
  | keyed container item => container ++ "[string, " ++ item.text ++ "]"

/-- The names that a type mentions by value, those outside of every pointer and container. The texts
of hints count only where `hints` says so. -/
def byValue (hints : Bool) : GoType → List String
  | hint text => if hints then [text] else []
  | name text => [text]
  | list container _ | keyed container _ => if hints then [container] else []
  | pointer _ | slice _ | map _ => []

def pointerTo (pointed : Bool) (type : GoType) : GoType := if pointed then .pointer type else type

def ofReference : Reference → GoType
  | .name text => .name text
  | .replacement text => .hint text

def ofExpr (pointed : Nat → Bool) : TypeExpr → GoType
  | .verbatim text => .hint text
  | .anything => .name "interface\x7b\x7d"
  | .primitive p nullable => pointerTo nullable (.name (primitiveText p))
  | .elements none item _ => .slice (ofExpr (fun _ => false) item)
  | .elements (some container) item _ => .list container (ofExpr (fun _ => false) item)
  | .values none item _ => .map (ofExpr (fun _ => false) item)
  | .values (some container) item _ => .keyed container (ofExpr (fun _ => false) item)
  | .declared id reference nullable => pointerTo (nullable || pointed id) (ofReference reference)

def ofField (pointed : Nat → Bool) (f : Field String) : GoType :=
  let type := ofExpr pointed f.type
  pointerTo (!f.required && !("*".isPrefixOf type.text || isNilable f.type)) type

/-- The type of a tag is the word `string`, unless a hint says otherwise. -/
def ofTag (type : String) : GoType := if type = "string" then .name type else .hint type

theorem text_pointerTo (pointed : Bool) (type : GoType) :
    (pointerTo pointed type).text = GoPackage.pointerTo pointed type.text := by
  cases pointed <;> rfl

theorem text_ofReference (reference : Reference) :
    (ofReference reference).text = reference.text := by
  cases reference <;> rfl

theorem text_ofTag (type : String) : (ofTag type).text = type := by
  unfold ofTag
  split <;> rfl

theorem text_ofExpr (pointed : Nat → Bool) (type : TypeExpr) :
    (ofExpr pointed type).text = typeText pointed type := by
  induction type generalizing pointed with
  | verbatim text => rfl
  | anything => rfl
  | primitive p nullable => simp [ofExpr, typeText, text_pointerTo, text]
  | elements container item nullable ih => cases container <;> simp [ofExpr, typeText, text, ih]
  | values container item nullable ih => cases container <;> simp [ofExpr, typeText, text, ih]
  | declared id reference nullable =>
    simp [ofExpr, typeText, text_pointerTo, text_ofReference]

theorem text_ofField (pointed : Nat → Bool) (f : Field String) :
    (ofField pointed f).text = fieldType pointed f := by
  simp only [ofField, fieldType, text_pointerTo, text_ofExpr]

end GoType

/-- A field of a struct, with the comment before it and the tag behind it. -/
structure StructField where
  lead : List String
  name : String
  type : GoType
  tag : String

def StructField.lines (f : StructField) : List String :=
  f.lead ++ ["\t" ++ f.name ++ " " ++ f.type.text ++ f.tag]

inductive TypeForm
  | struct (fields : List StructField)
  | alias (type : GoType)
  | defined (type : GoType)
  /-- Nothing is declared: a union whose tag has no field. -/
  | missing

/-- A type declaration, and all that is written behind it and declares no type. -/
structure TypeDecl where
  lead : List String
  name : String
  form : TypeForm
  rest : List String

namespace TypeDecl

def ofField (pointed : Nat → Bool) (f : Field String) : StructField where
  lead := lineComment "\t// " f.described
  name := f.name
  type := .ofField pointed f
  tag := " \x60json:\"" ++ f.extra ++ (if f.required then "" else ",omitempty") ++ "\"\x60"

def tagField (t : TagField) : StructField := ⟨[], t.member, .ofTag t.type, ""⟩

def ofCase (k : Case) : StructField := ⟨[], k.member, .ofReference k.reference, ""⟩

def formOf (pointed : Nat → Bool) (tag : Option TagField) : Body String → TypeForm
  | .record fields _ => .struct (fields.map (ofField pointed))
  | .variant _ _ fields _ => .struct (fields.map (ofField pointed))
  | .enumeration _ => .defined (.name "string")
  | .union _ cases =>
    match tag with
    | none => .missing
    | some t => .struct (tagField t :: cases.map ofCase)
  | .wrapper (.declared id reference nullable) =>
    .alias (.ofExpr pointed (.declared id reference nullable))
  | .wrapper inner => .defined (.ofExpr pointed inner)

def restOf (name : String) (tag : Option TagField) : Body String → List String
  | .enumeration choices => ["", "const ("] ++ choices.flatMap (choiceLines name) ++ [")"]
  | .union _ cases =>
    match tag with
    | none => []
    | some t => [""] ++ marshalLines name t cases ++ [""] ++ unmarshalLines name t cases
  | _ => []

def ofDraft (edges : List (List Nat)) (d : Draft (Option TagField) String) : TypeDecl :=
  ⟨lineComment "// " d.described, d.name, formOf (closesCycle edges d.id) d.extra d.body,
    restOf d.name d.extra d.body⟩

def formLines (name : String) : TypeForm → List String
  | .struct fields =>
    ["type " ++ name ++ " struct \x7b"] ++ fields.flatMap StructField.lines ++ ["\x7d"]
  | .alias type => ["type " ++ name ++ " = " ++ type.text]
  | .defined type => ["type " ++ name ++ " " ++ type.text]
  | .missing => []

def lines (t : TypeDecl) : List String := t.lead ++ formLines t.name t.form ++ t.rest

def types (t : TypeDecl) : List GoType :=
  match t.form with
  | .struct fields => fields.map StructField.type
  | .alias type => [type]
  | .defined type => [type]
  | .missing => []

def byValue (hints : Bool) (t : TypeDecl) : List String := t.types.flatMap (GoType.byValue hints)

theorem flatMap_ofField (pointed : Nat → Bool) (fields : List (Field String)) :
    (fields.map (ofField pointed)).flatMap StructField.lines =
      fields.flatMap (fieldLines pointed) := by
  rw [List.flatMap_map]
  congr 1
  funext f
  simp [StructField.lines, ofField, GoType.text_ofField, fieldLines, String.append_assoc]

theorem flatMap_ofCase (cases : List Case) :
    (cases.map ofCase).flatMap StructField.lines =
      cases.map (fun k => "\t" ++ k.member ++ " " ++ k.reference.text) := by
  rw [List.flatMap_map, List.map_eq_flatMap]
  congr 1
  funext k
  simp [StructField.lines, ofCase, GoType.text_ofReference]

theorem lines_ofDraft (edges : List (List Nat)) (d : Draft (Option TagField) String) :
    (ofDraft edges d).lines = itemLines edges d := by
  obtain ⟨id, name, described, body, extra⟩ := d
  cases body with
  | record fields additional =>
    simp [ofDraft, lines, itemLines, formOf, restOf, formLines, bodyLines, structLines,
      flatMap_ofField]
  | variant base tagValue fields additional =>
    simp [ofDraft, lines, itemLines, formOf, restOf, formLines, bodyLines, structLines,
      flatMap_ofField]
  | enumeration choices =>
    simp [ofDraft, lines, itemLines, formOf, restOf, formLines, bodyLines, GoType.text,
      String.append_assoc]
  | union tag cases =>
    cases extra with
    | none => simp [ofDraft, lines, itemLines, formOf, restOf, formLines, bodyLines]
    | some t =>
      simp [ofDraft, lines, itemLines, formOf, restOf, formLines, bodyLines, unionLines,
        flatMap_ofCase, tagField, StructField.lines, GoType.text_ofTag]
  | wrapper inner =>
    cases inner <;>
      simp [ofDraft, lines, itemLines, formOf, restOf, formLines, bodyLines, GoType.text_ofExpr]

end TypeDecl

def packageDecls (c : NamedCatalog) : Except Unsupported (List TypeDecl) := do
  return (← rules.drafts c).map (TypeDecl.ofDraft (holdings c.catalog))

/-- What stands before the first declaration. -/
def headLines (package : String) (c : NamedCatalog) : Except Unsupported (List String) := do
  return ["// " ++ notice, "", "package " ++ package] ++ importLines (imports (← rules.drafts c))

def packageFile (package : String) (head : List String) (decls : List TypeDecl) : File :=
  ⟨package ++ ".go", Text.unlines (head ++ decls.flatMap (fun t => "" :: t.lines))⟩

/-- A package is the print of its declarations. -/
theorem files_eq_ok (package : String) (c : NamedCatalog) (files' : List File) :
    files package c = .ok files' ↔
      ∃ head decls, headLines package c = .ok head ∧ packageDecls c = .ok decls ∧
        files' = [packageFile package head decls] := by
  have printed (drafts : List (Draft (Option TagField) String)) :
      (drafts.map (TypeDecl.ofDraft (holdings c.catalog))).flatMap (fun t => "" :: t.lines) =
        drafts.flatMap (fun d => "" :: itemLines (holdings c.catalog) d) := by
    simp only [List.flatMap_map, TypeDecl.lines_ofDraft]
  simp only [files, headLines, packageDecls, bind_eq_ok, pure_eq_ok, packageFile]
  constructor
  · rintro ⟨drafts, read, rfl⟩
    exact ⟨_, _, ⟨drafts, read, rfl⟩, ⟨drafts, read, rfl⟩, by rw [printed]⟩
  · rintro ⟨_, _, ⟨drafts, read, rfl⟩, ⟨_, again, rfl⟩, rfl⟩
    cases read.symm.trans again
    exact ⟨drafts, read, by rw [printed]⟩

section Mentions

/-- What the language itself calls its types. -/
def ownWords : List String := "interface{}" :: Primitive.all.map primitiveText

theorem primitiveText_mem_ownWords (p : Primitive) : primitiveText p ∈ ownWords := by
  cases p <;> decide

theorem not_capital_of_mem_ownWords : ∀ word ∈ ownWords, ¬ Naming.Capital word := by
  decide

theorem byValue_pointerTo {pointed : Bool} {type : GoType} {name : String}
    (mentioned : name ∈ (GoType.pointerTo pointed type).byValue false) :
    pointed = false ∧ name ∈ type.byValue false := by
  cases pointed with
  | false => exact ⟨rfl, mentioned⟩
  | true => cases mentioned

theorem byValue_ofReference {reference : Reference} {name : String}
    (mentioned : name ∈ (GoType.ofReference reference).byValue false) :
    reference = .name name := by
  cases reference with
  | name text => rw [List.mem_singleton.1 mentioned]
  | replacement text => cases mentioned

theorem byValue_ofTag {type name : String}
    (mentioned : name ∈ (GoType.ofTag type).byValue false) : name ∈ ownWords := by
  unfold GoType.ofTag at mentioned
  split at mentioned
  · rename_i same
    obtain rfl := List.mem_singleton.1 mentioned
    exact same ▸ primitiveText_mem_ownWords .string
  · cases mentioned

/-- Beside the words of the language, only a declaration without a pointer is mentioned. -/
theorem byValue_ofExpr {pointed : Nat → Bool} {type : TypeExpr} {name : String}
    (mentioned : name ∈ (GoType.ofExpr pointed type).byValue false) :
    name ∈ ownWords ∨
      ∃ id nullable, type = .declared id (.name name) nullable ∧ pointed id = false := by
  cases type with
  | verbatim text => cases mentioned
  | anything =>
    obtain rfl := List.mem_singleton.1 mentioned
    exact .inl (by decide)
  | primitive p nullable =>
    obtain ⟨-, inner⟩ := byValue_pointerTo mentioned
    obtain rfl := List.mem_singleton.1 inner
    exact .inl (primitiveText_mem_ownWords p)
  | elements container item nullable => cases container <;> cases mentioned
  | values container item nullable => cases container <;> cases mentioned
  | declared id reference nullable =>
    obtain ⟨free, inner⟩ := byValue_pointerTo mentioned
    exact .inr ⟨id, nullable, by rw [byValue_ofReference inner], (Bool.or_eq_false_iff.1 free).2⟩

theorem mayWrite_of_byValue {edges : List (List Nat)} {d : Draft (Option TagField) String}
    {name : String} (mentioned : name ∈ (TypeDecl.ofDraft edges d).byValue false) :
    MayWrite ownWords edges d name := by
  have ofFields {fields : List (Field String)}
      (mentioned : name ∈ ((fields.map (TypeDecl.ofField (closesCycle edges d.id))).map
        StructField.type).flatMap (GoType.byValue false)) :
      name ∈ ownWords ∨ ∃ id nullable, .declared id (.name name) nullable ∈ fields.map Field.type ∧
        closesCycle edges d.id id = false := by
    obtain ⟨type, inside, mentioned⟩ := List.mem_flatMap.1 mentioned
    simp only [List.map_map, List.mem_map, Function.comp_apply] at inside
    obtain ⟨f, inside, rfl⟩ := inside
    obtain ⟨-, inner⟩ := byValue_pointerTo mentioned
    refine (byValue_ofExpr inner).imp id ?_
    rintro ⟨id, nullable, same, free⟩
    exact ⟨id, nullable, List.mem_map.2 ⟨f, inside, same⟩, free⟩
  have ofWrapped {inner : TypeExpr}
      (mentioned : name ∈ (GoType.ofExpr (closesCycle edges d.id) inner).byValue false) :
      name ∈ ownWords ∨ ∃ id nullable, .declared id (.name name) nullable ∈ [inner] ∧
        closesCycle edges d.id id = false := by
    refine (byValue_ofExpr mentioned).imp (fun own => own) ?_
    rintro ⟨id, nullable, rfl, free⟩
    exact ⟨id, nullable, List.mem_singleton_self _, free⟩
  obtain ⟨id, draftName, described, body, tag⟩ := d
  cases body with
  | record fields additional => exact (ofFields mentioned).imp (fun own => own) .inl
  | variant base tagValue fields additional => exact (ofFields mentioned).imp (fun own => own) .inl
  | enumeration choices =>
    obtain rfl := List.mem_singleton.1 mentioned
    exact .inl (by decide)
  | union tagName cases =>
    cases tag with
    | none => cases mentioned
    | some t =>
      rcases List.mem_append.1 mentioned with own | mentioned
      · exact .inl (byValue_ofTag own)
      · obtain ⟨type, inside, mentioned⟩ := List.mem_flatMap.1 mentioned
        obtain ⟨field, listed, rfl⟩ := List.mem_map.1 inside
        obtain ⟨k, known, rfl⟩ := List.mem_map.1 listed
        exact .inr (.inr (List.mem_map.2 ⟨k, known, byValue_ofReference mentioned⟩))
  | wrapper inner =>
    cases inner <;>
      exact (ofWrapped (by simpa [TypeDecl.byValue, TypeDecl.types, TypeDecl.ofDraft,
        TypeDecl.formOf] using mentioned)).imp (fun own => own) .inl

/-- The first declaration mentions the second by value. -/
def Mentions (hints : Bool) (decls : List TypeDecl) : TypeDecl → TypeDecl → Prop :=
  Binding.Mentions TypeDecl.name (TypeDecl.byValue hints) decls

/-- No declaration of a package is part of itself by value, the texts of hints apart. -/
theorem acyclic_mentions {c : NamedCatalog} (linked : c.catalog.Linked)
    (named : c.names = Naming.resolve naming c.catalog)
    (distinct : Naming.Distinct naming c.catalog c.names) {decls : List TypeDecl}
    (made : packageDecls c = .ok decls) (t : TypeDecl) : ¬ TransGen (Mentions false decls) t t := by
  obtain ⟨drafts, read, same⟩ := (bind_eq_ok ..).1 made
  obtain rfl := (pure_eq_ok ..).1 same
  have foreign : ∀ n ∈ c.names, n.type ∉ ownWords := by
    intro n inside own
    exact not_capital_of_mem_ownWords _ own
      (Naming.capital_type_resolve rfl c.catalog (named ▸ inside))
  exact acyclic_mentions_of_mayWrite linked distinct read foreign
    (TypeDecl.ofDraft (holdings c.catalog)) TypeDecl.name (TypeDecl.byValue false) (fun _ => rfl)
    (fun d text => mayWrite_of_byValue) t

end Mentions

end SchemaBindings.Binding.GoPackage
