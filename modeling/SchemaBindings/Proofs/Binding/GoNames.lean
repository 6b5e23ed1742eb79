import Mathlib.Data.List.Perm.Basic
import SchemaBindings.Proofs.Binding.FiniteSize

/-! The names that a Go package declares: types and constants side by side, the fields and methods
of each type, and the fields of the structs that variants are marshalled through. -/

namespace SchemaBindings.Binding.GoPackage

/-- The struct that a variant is marshalled through: a field for the tag, and the variant embedded,
whose type is the name of a second field. -/
structure Envelope where
  tag : StructField
  embedded : Reference
  values : String

def Envelope.lines (e : Envelope) : List String :=
  ["\t\treturn json.Marshal(struct \x7b"] ++ e.tag.lines.map ("\t\t" ++ ·) ++
    ["\t\t\t" ++ e.embedded.text, "\t\t\x7d\x7b" ++ e.values ++ "\x7d)"]

/-- A piece of the body of a method. -/
inductive Piece
  | line (text : String)
  | envelope (e : Envelope)

namespace Piece

def lines : Piece → List String
  | line text => [text]
  | envelope e => e.lines

def envelope? : Piece → Option Envelope
  | line _ => none
  | envelope e => some e

@[simp] theorem envelope?_line (text : String) : (line text).envelope? = none := rfl

@[simp] theorem envelope?_envelope (e : Envelope) : (envelope e).envelope? = some e := rfl

end Piece

structure Method where
  receiver : String
  name : String
  signature : String
  body : List Piece

namespace Method

def lines (m : Method) : List String :=
  ["func (" ++ m.receiver ++ ") " ++ m.name ++ m.signature ++ " \x7b"] ++
    m.body.flatMap Piece.lines ++ ["\x7d"]

def envelopeOf (t : TagField) (k : Case) : Envelope :=
  ⟨⟨[], "T", .ofTag t.type, " \x60json:\"" ++ t.tagName ++ "\"\x60"⟩, k.reference,
    "v." ++ t.member ++ ", v." ++ k.member⟩

def marshalPieces (t : TagField) (k : Case) : List Piece :=
  [.line ("\tcase " ++ Text.jsonString k.tagValue ++ ":"), .envelope (envelopeOf t k)]

def marshal (name : String) (t : TagField) (cases : List Case) : Method where
  receiver := "v " ++ name
  name := "MarshalJSON"
  signature := "() ([]byte, error)"
  body :=
    [.line ("\tswitch v." ++ t.member ++ " \x7b")] ++ cases.flatMap (marshalPieces t) ++
      [.line "\t\x7d", .line "",
       .line ("\treturn nil, fmt.Errorf(\"bad " ++ t.member ++ " value: %s\", v." ++ t.member ++
        ")")]

/-- The body holds no struct with a field beside the tag, so it is read line by line. -/
def unmarshal (name : String) (t : TagField) (cases : List Case) : Method where
  receiver := "v *" ++ name
  name := "UnmarshalJSON"
  signature := "(b []byte) error"
  body := ((unmarshalLines name t cases).tail.dropLast).map .line

theorem lines_marshal (name : String) (t : TagField) (cases : List Case) :
    (marshal name t cases).lines = marshalLines name t cases := by
  have head : "func (" ++ ("v " ++ name) ++ ") " ++ "MarshalJSON" ++ "() ([]byte, error)" ++
      " \x7b" = "func (v " ++ name ++ ") MarshalJSON() ([]byte, error) \x7b" := by
    rw [← String.append_assoc]
    simp [String.append_assoc]
  have pieces : (cases.flatMap (marshalPieces t)).flatMap Piece.lines =
      cases.flatMap (marshalCase t) := by
    rw [List.flatMap_assoc]
    congr 1
    funext k
    simp [marshalPieces, Piece.lines, Envelope.lines, envelopeOf, StructField.lines,
      GoType.text_ofTag, marshalCase, ← String.append_assoc]
  simp only [lines, marshal, head, marshalLines, List.flatMap_append, pieces]
  simp [Piece.lines]

theorem lines_unmarshal (name : String) (t : TagField) (cases : List Case) :
    (unmarshal name t cases).lines = unmarshalLines name t cases := by
  have head : "func (" ++ ("v *" ++ name) ++ ") " ++ "UnmarshalJSON" ++ "(b []byte) error" ++
      " \x7b" = "func (v *" ++ name ++ ") UnmarshalJSON(b []byte) error \x7b" := by
    rw [← String.append_assoc]
    simp [String.append_assoc]
  have body (inner : List String) : (inner.map Piece.line).flatMap Piece.lines = inner := by
    simp [List.flatMap_map, Piece.lines]
  simp only [lines, unmarshal, head, body]
  simp [unmarshalLines, List.dropLast_append_of_ne_nil, List.dropLast_cons_of_ne_nil]

end Method

/-- What is written behind a type declaration. -/
inductive Tail
  | nothing
  | constants (type : String) (choices : List Choice)
  | methods (all : List Method)

namespace Tail

def lines : Tail → List String
  | nothing => []
  | constants type choices => ["", "const ("] ++ choices.flatMap (choiceLines type) ++ [")"]
  | methods all => all.flatMap (fun m => "" :: m.lines)

def ofBody (name : String) (tag : Option TagField) : Body String → Tail
  | .enumeration choices => constants name choices
  | .union _ cases =>
    match tag with
    | none => nothing
    | some t => methods [.marshal name t cases, .unmarshal name t cases]
  | _ => nothing

theorem lines_ofBody (name : String) (tag : Option TagField) (body : Body String) :
    (ofBody name tag body).lines = TypeDecl.restOf name tag body := by
  cases body with
  | union tagName cases =>
    cases tag with
    | none => rfl
    | some t =>
      simp [ofBody, lines, TypeDecl.restOf, Method.lines_marshal, Method.lines_unmarshal]
  | _ => rfl

end Tail

/-- A type declaration, and what is written behind it as constants and methods. -/
structure Item where
  decl : TypeDecl
  tail : Tail
  printed : tail.lines = decl.rest

namespace Item

def ofDraft (edges : List (List Nat)) (d : Draft (Option TagField) String) : Item :=
  ⟨.ofDraft edges d, .ofBody d.name d.extra d.body, Tail.lines_ofBody ..⟩

def constants (i : Item) : List String :=
  match i.tail with
  | .constants _ choices => choices.map Choice.constant
  | _ => []

/-- The names that an item declares for its whole package. -/
def declared (i : Item) : List String := i.decl.name :: i.constants

def fields (i : Item) : List String :=
  match i.decl.form with
  | .struct fields => fields.map StructField.name
  | _ => []

def methods (i : Item) : List Method :=
  match i.tail with
  | .methods all => all
  | _ => []

def envelopes (i : Item) : List Envelope :=
  i.methods.flatMap (fun m => m.body.filterMap Piece.envelope?)

end Item

def packageItems (c : NamedCatalog) : Except Unsupported (List Item) := do
  return (← rules.drafts c).map (Item.ofDraft (holdings c.catalog))

theorem packageItems_of_packageDecls {c : NamedCatalog} {decls : List TypeDecl}
    (made : packageDecls c = .ok decls) :
    ∃ items, packageItems c = .ok items ∧ decls = items.map Item.decl := by
  obtain ⟨drafts, read, same⟩ := (bind_eq_ok ..).1 made
  obtain rfl := (pure_eq_ok ..).1 same
  refine ⟨_, (bind_eq_ok ..).2 ⟨drafts, read, rfl⟩, ?_⟩
  rw [List.map_map]
  rfl

/-- A package declares each of its names once, and so does each struct in it. -/
structure Apart (items : List Item) : Prop where
  package : (items.flatMap Item.declared).Nodup
  fields : ∀ i ∈ items, i.fields.Nodup

/-- Beside that, no field is named like a method of its type, and none of an envelope like the
variant embedded in it. -/
structure DeclaredOnce (items : List Item) : Prop extends Apart items where
  methods : ∀ i ∈ items, ∀ m ∈ i.methods, m.name ∉ i.fields
  envelopes : ∀ i ∈ items, ∀ e ∈ i.envelopes, e.embedded ≠ .name e.tag.name

/-- The methods that every union gets. -/
def methodNames : List String := ["MarshalJSON", "UnmarshalJSON"]

/-- No raw name of a union is spelled like a name that the union's own code has. -/
structure Spared (catalog : Catalog) : Prop where
  tags : ∀ d ∈ catalog.declarations, ∀ tag variants, d.shape = .union tag variants →
    naming.memberName tag ∉ methodNames
  tagValues : ∀ d ∈ catalog.declarations, ∀ parent tagValue members additional,
    d.shape = .variant parent tagValue members additional →
      naming.memberName tagValue ∉ methodNames ∧ naming.typeName d.path ≠ "T"

section Names

variable {c : NamedCatalog}

/-- What a declaration gives to its package. -/
def declaredBy (entry : Declaration × Naming.Names) : List String :=
  entry.2.type ::
    match entry.1.shape with
    | .enumeration _ => entry.2.constants
    | _ => []

theorem perm_declaredBy (declarations : List Declaration) (names : List Naming.Names)
    (count : names.length = declarations.length) :
    (names.map Naming.Names.type ++ Naming.enumConstants declarations names).Perm
      ((declarations.zip names).flatMap declaredBy) := by
  have types : (declarations.zip names).flatMap (fun entry => [entry.2.type]) =
      names.map Naming.Names.type := by
    rw [← List.map_eq_flatMap, ← Function.comp_def Naming.Names.type Prod.snd, ← List.map_map,
      List.map_snd_zip (Nat.le_of_eq count)]
  rw [← types]
  exact List.flatMap_append_perm _ _ _

variable {edges : List (List Nat)} {declaration : Declaration} {names : Naming.Names}
  {d : Draft (Option TagField) String}

theorem declared_sublist (drafted : rules.draft c declaration names = .ok d) :
    (Item.ofDraft edges d).declared.Sublist (declaredBy (declaration, names)) := by
  obtain ⟨-, named, read⟩ := draft_eq_ok drafted
  obtain ⟨id, name, described, body, tag⟩ := d
  obtain rfl := named
  obtain ⟨_, path, shape, metadata, nullable, owner, here⟩ := declaration
  refine List.Sublist.cons_cons names.type ?_
  cases bodyOf_of_body read with
  | @enumeration values =>
    simp only [Item.constants, Item.ofDraft, Tail.ofBody, List.map_map]
    exact map_snd_zip_sublist values names.constants
  | union _ => cases tag <;> exact List.nil_sublist _
  | _ => exact List.nil_sublist _

/-- The tag of a union has a field, named as the tag member is. -/
theorem exists_of_tagField {tag : String} {variants : List Nat} {extra : Option TagField}
    (shape : declaration.shape = .union tag variants)
    (read : tagField declaration names = .ok extra) :
    ∃ t, extra = some t ∧ names.tagMember = some t.member := by
  simp only [tagField, shape] at read
  cases known : names.tagMember with
  | none =>
    simp only [known] at read
    cases read
  | some member =>
    simp only [known, bind_eq_ok, pure_eq_ok] at read
    obtain ⟨_, -, _, -, rfl⟩ := read
    exact ⟨_, rfl, rfl⟩

/-- The fields of a union are its tag and some of its members. -/
theorem fields_of_union (edges : List (List Nat)) {tag : String} {variants : List Nat}
    (drafted : rules.draft c declaration names = .ok d)
    (shape : declaration.shape = .union tag variants) :
    ∃ tagMember, names.tagMember = some tagMember ∧
      (Item.ofDraft edges d).fields.Sublist (tagMember :: names.members) := by
  obtain ⟨-, -, whole⟩ := draft_eq_ok drafted
  obtain ⟨t, extra, known⟩ := exists_of_tagField shape (extra_of_draft drafted)
  obtain ⟨id, name, described, body, _⟩ := d
  obtain rfl := extra
  rw [shape] at whole
  refine ⟨t.member, known, ?_⟩
  cases bodyOf_of_body whole with
  | @union _ _ cases read =>
    have same : (Item.ofDraft edges ⟨id, name, described, .union tag cases, some t⟩).fields =
        t.member :: cases.map Case.member := by
      simp [Item.fields, Item.ofDraft, TypeDecl.ofDraft, TypeDecl.formOf, TypeDecl.tagField,
        TypeDecl.ofCase, Function.comp_def]
    exact same ▸ (sublist_member_cases read).cons_cons t.member

/-- The fields of any other declaration are its members. -/
theorem fields_of_members (edges : List (List Nat))
    (drafted : rules.draft c declaration names = .ok d)
    (other : ∀ tag variants, declaration.shape ≠ .union tag variants) :
    (Item.ofDraft edges d).fields.Sublist
      ((declaration.shape.members.zip names.members).map (·.2)) := by
  obtain ⟨-, -, whole⟩ := draft_eq_ok drafted
  obtain ⟨id, name, described, body, tag⟩ := d
  obtain ⟨_, path, shape, metadata, nullable, owner, here⟩ := declaration
  have named {members : List Member} {fields : List (Field String)}
      (read : rules.fields c (members.zip names.members) = .ok fields) :
      (fields.map (TypeDecl.ofField (closesCycle edges id))).map StructField.name =
        (members.zip names.members).map (·.2) := by
    rw [List.map_map, ← map_name_fields read]
    rfl
  cases bodyOf_of_body whole with
  | record read => exact (named read) ▸ List.Sublist.refl _
  | variant _ read => exact (named read) ▸ List.Sublist.refl _
  | union _ => exact absurd rfl (other _ _)
  | @wrapper inner type _ => cases type <;> exact List.nil_sublist _
  | enumeration => exact List.nil_sublist _

theorem nodup_fields {tagOf? : Nat → Option String}
    (drafted : rules.draft c declaration names = .ok d)
    (promised : Naming.DistinctIn tagOf? declaration.shape names) :
    (Item.ofDraft edges d).fields.Nodup := by
  cases shape : declaration.shape with
  | union tag variants =>
    obtain ⟨tagMember, known, sublist⟩ := fields_of_union edges drafted shape
    obtain ⟨-, -, -, _, tagged, distinct⟩ := promised.union tag variants shape
    obtain rfl := Option.some.inj (known.symm.trans tagged)
    exact distinct.sublist sublist
  | record members additional =>
    have sublist := fields_of_members edges drafted (by simp [shape])
    exact (promised.record _ _ shape).2.sublist (sublist.trans (map_snd_zip_sublist _ _))
  | variant parent tagValue members additional =>
    have sublist := fields_of_members edges drafted (by simp [shape])
    exact (promised.variant _ _ _ _ shape).2.1.sublist (sublist.trans (map_snd_zip_sublist _ _))
  | enumeration values =>
    have sublist := fields_of_members edges drafted (by simp [shape])
    rw [shape] at sublist
    exact List.nodup_nil.sublist sublist
  | wrapper inner =>
    have sublist := fields_of_members edges drafted (by simp [shape])
    rw [shape] at sublist
    exact List.nodup_nil.sublist sublist

end Names

/-- The items of a package are made from the drafts of its declarations. -/
theorem exists_of_mem_packageItems {c : NamedCatalog} {items : List Item}
    (made : packageItems c = .ok items) {i : Item} (member : i ∈ items) :
    ∃ id declaration names d, c.catalog.declaration? id = some declaration ∧
      c.names[id]? = some names ∧ rules.draft c declaration names = .ok d ∧
      i = .ofDraft (holdings c.catalog) d := by
  obtain ⟨drafts, read, same⟩ := (bind_eq_ok ..).1 made
  obtain rfl := (pure_eq_ok ..).1 same
  obtain ⟨d, inside, rfl⟩ := List.mem_map.1 member
  obtain ⟨id, declaration, names, declared, named, drafted⟩ := exists_of_mem_drafts read inside
  exact ⟨id, declaration, names, d, declared, named, drafted, rfl⟩

/-- Whatever the raw names are, no name of a package and no field of a struct is declared twice. -/
theorem apart_packageItems {c : NamedCatalog}
    (distinct : Naming.Distinct naming c.catalog c.names) {items : List Item}
    (made : packageItems c = .ok items) : Apart items := by
  constructor
  case package =>
    obtain ⟨drafts, read, same⟩ := (bind_eq_ok ..).1 made
    obtain rfl := (pure_eq_ok ..).1 same
    have all := perm_declaredBy c.catalog.declarations c.names distinct.count
    rw [List.flatMap_map]
    refine (all.nodup (distinct.global rfl).1).sublist ?_
    exact sublist_flatMap_drafts (fun _ _ drafted => declared_sublist drafted) read
  case fields =>
    intro i member
    obtain ⟨id, declaration, names, d, declared, named, drafted, rfl⟩ :=
      exists_of_mem_packageItems made member
    refine nodup_fields drafted (distinct.each id declaration.shape names ?_ named)
    rw [Catalog.shape?, declared, Option.map_some]

section Sparing

variable {c : NamedCatalog}

/-- A number behind a name never makes it one that the code of a union has. -/
theorem numbered_not_own (base : String) (k : Nat) :
    Naming.Scope.numbered base k ∉ "T" :: methodNames := by
  intro own
  obtain ⟨d, last, digit⟩ := Naming.Scope.getLast?_numbered base k
  have letters : ∀ word ∈ "T" :: methodNames, word.toList.getLast?.any Char.isDigit = false := by
    decide
  have none := letters _ own
  rw [Option.mem_def.1 last, Option.any_some, digit] at none
  cases none

theorem typeName_ne {id : Nat} {d : Declaration}
    (named : c.names = Naming.resolve naming c.catalog)
    (declared : c.catalog.declaration? id = some d) (path : naming.typeName d.path ≠ "T") :
    c.typeName id ≠ "T" := by
  intro same
  have claimed : (Naming.typeNames naming c.catalog).1[id]? = some "T" := by
    rw [← Naming.map_type_resolve, ← named, List.getElem?_map]
    cases known : c.names[id]? with
    | none => simp [NamedCatalog.typeName, known] at same
    | some n => simpa [NamedCatalog.typeName, known] using same
  obtain ⟨base, listed, spelled⟩ := Naming.Scope.getElem?_claimAll claimed
  have based : base = naming.typeName d.path := by
    rw [List.getElem?_map, show c.catalog.declarations[id]? = some d from declared] at listed
    exact (Option.some.inj listed).symm
  rcases spelled with rfl | ⟨k, numbered⟩
  · exact path based.symm
  · exact numbered_not_own base k (numbered ▸ List.mem_cons_self)

/-- Neither the tag of a union nor its members have the name of a method. -/
theorem members_not_method (spared : Spared c.catalog)
    (named : c.names = Naming.resolve naming c.catalog) {id : Nat} {d : Declaration}
    {names : Naming.Names} {tag : String} {variants : List Nat}
    (declared : c.catalog.declaration? id = some d) (shape : d.shape = .union tag variants)
    (found : c.names[id]? = some names) :
    (∀ tagMember, names.tagMember = some tagMember → tagMember ∉ methodNames) ∧
      ∀ name ∈ names.members, name ∉ methodNames := by
  have inside : d ∈ c.catalog.declarations := List.mem_of_getElem? declared
  obtain ⟨scope, type, same⟩ := Naming.getElem?_resolve naming c.catalog
    (show c.catalog.shape? id = some (.union tag variants) by
      rw [Catalog.shape?, declared, Option.map_some, shape])
  obtain rfl := Option.some.inj (found.symm.trans (named ▸ same))
  constructor
  · intro tagMember known
    rw [Naming.tagMember_namesOf_union] at known
    exact Option.some.inj known ▸ spared.tags d inside tag variants shape
  · simp only [Naming.namesOf]
    refine Naming.Scope.forall_claimAll
      (fun base k _ method => numbered_not_own base k (List.mem_cons_of_mem _ method)) ?_
    refine List.forall_mem_map.2 fun tagValue held => ?_
    obtain ⟨v, -, known⟩ := List.mem_filterMap.1 held
    unfold Naming.tagValue? at known
    split at known
    · rename_i parent _ members additional variant
      obtain rfl := Option.some.inj known
      obtain ⟨other, declared, shape⟩ := Option.map_eq_some_iff.1 variant
      have listed : other ∈ c.catalog.declarations := List.mem_of_getElem? declared
      exact (spared.tagValues other listed parent _ members additional shape).1
    · cases known

/-- Only a union has methods, and their names are the same for all. -/
theorem union_of_mem_methods {edges : List (List Nat)} {d : Draft (Option TagField) String}
    {m : Method} (member : m ∈ (Item.ofDraft edges d).methods) :
    ∃ tag cases t, d.body = .union tag cases ∧ d.extra = some t ∧
      (m = .marshal d.name t cases ∨ m = .unmarshal d.name t cases) := by
  obtain ⟨id, name, described, body, extra⟩ := d
  cases body with
  | union tag cases =>
    cases extra with
    | none => cases member
    | some t =>
      refine ⟨tag, cases, t, rfl, rfl, ?_⟩
      simpa [Item.methods, Item.ofDraft, Tail.ofBody] using member
  | _ => cases member

/-- The envelopes of a union are those of its cases. -/
theorem case_of_mem_envelopes {edges : List (List Nat)} {d : Draft (Option TagField) String}
    {e : Envelope} (member : e ∈ (Item.ofDraft edges d).envelopes) :
    ∃ tag cases t, d.body = .union tag cases ∧ ∃ k ∈ cases, e = Method.envelopeOf t k := by
  obtain ⟨m, method, inside⟩ := List.mem_flatMap.1 member
  obtain ⟨tag, cases, t, body, -, rfl | rfl⟩ := union_of_mem_methods method
  · refine ⟨tag, cases, t, body, ?_⟩
    obtain ⟨piece, written, read⟩ := List.mem_filterMap.1 inside
    simp only [Method.marshal, List.mem_append, List.mem_cons, List.mem_flatMap,
      List.not_mem_nil, or_false] at written
    rcases written with (rfl | ⟨k, known, written⟩) | rfl | rfl | rfl
    · cases read
    · simp only [Method.marshalPieces, List.mem_cons, List.not_mem_nil, or_false] at written
      rcases written with rfl | rfl
      · cases read
      · exact ⟨k, known, (Option.some.inj read).symm⟩
    · cases read
    · cases read
    · cases read
  · obtain ⟨piece, written, read⟩ := List.mem_filterMap.1 inside
    obtain ⟨text, -, rfl⟩ := List.mem_map.1 written
    cases read

end Sparing

/-- When the raw names of the unions are spared, a package declares every name once. -/
theorem declaredOnce_packageItems {c : NamedCatalog}
    (distinct : Naming.Distinct naming c.catalog c.names)
    (named : c.names = Naming.resolve naming c.catalog) (spared : Spared c.catalog)
    {items : List Item} (made : packageItems c = .ok items) : DeclaredOnce items := by
  refine ⟨apart_packageItems distinct made, fun i member m method field => ?_,
    fun i member e envelope same => ?_⟩
  · obtain ⟨id, declaration, names, d, declared, found, drafted, rfl⟩ :=
      exists_of_mem_packageItems made member
    obtain ⟨tag, cases, t, body, -, made⟩ := union_of_mem_methods method
    have own : m.name ∈ methodNames := by
      rcases made with rfl | rfl
      · exact List.mem_cons_self
      · exact List.mem_cons_of_mem _ List.mem_cons_self
    obtain ⟨variants, shape, -⟩ := shape_of_union (body ▸ (draft_eq_ok drafted).2.2)
    obtain ⟨tagMember, known, sublist⟩ := fields_of_union _ drafted shape
    obtain ⟨tagged, others⟩ := members_not_method spared named declared shape found
    rcases List.mem_cons.1 (sublist.subset field) with same | inside
    · exact tagged tagMember known (same ▸ own)
    · exact others m.name inside own
  · obtain ⟨id, declaration, names, d, declared, found, drafted, rfl⟩ :=
      exists_of_mem_packageItems made member
    obtain ⟨tag, cases, t, body, k, known, rfl⟩ := case_of_mem_envelopes envelope
    obtain ⟨variants, -, read⟩ := shape_of_union (body ▸ (draft_eq_ok drafted).2.2)
    obtain ⟨entry, -, case⟩ := caseOf_of_mem_cases read known
    obtain ⟨v, parent, members, additional, declared, shape⟩ := case.variant
    have path := (spared.tagValues v (List.mem_of_getElem? declared) _ _ _ _ shape).2
    have plain : k.reference = .name "T" := same
    exact typeName_ne named declared path (name_of_reference (plain ▸ case.reference)).symm

/-- What is rendered for Go is the print of its items. -/
theorem exists_items_of_render {schema : Schema} {rootName package : String} {rendered : Rendered}
    (renders : Target.render ⟨.go, package⟩ (Catalog.ofSchema schema rootName) = .ok rendered) :
    ∃ head items, packageItems (namedFor .go schema rootName) = .ok items ∧
      rendered.files = [packageFile package head (items.map Item.decl)] := by
  obtain ⟨head, decls, -, made, printed⟩ :=
    (files_eq_ok package (namedFor .go schema rootName) _).1 (files_of_render renders)
  obtain ⟨items, itemsMade, rfl⟩ := packageItems_of_packageDecls made
  exact ⟨head, items, itemsMade, printed⟩

/-- What is rendered for Go declares no name of the package and no field of a struct twice. When
the raw names of the unions are spared, no field is named like a method or an embedded type. -/
theorem declaredOnce_render (schema : Schema) (rootName package : String) (rendered : Rendered)
    (renders : Target.render ⟨.go, package⟩ (Catalog.ofSchema schema rootName) = .ok rendered) :
    ∃ head items, packageItems (namedFor .go schema rootName) = .ok items ∧
      rendered.files = [packageFile package head (items.map Item.decl)] ∧ Apart items ∧
        (Spared (Catalog.ofSchema schema rootName) → DeclaredOnce items) := by
  obtain ⟨head, items, made, printed⟩ := exists_items_of_render renders
  have distinct := Naming.distinct_of_linked naming (Catalog.linked_ofSchema schema rootName)
  exact ⟨head, items, made, printed, apart_packageItems distinct made,
    fun spared => declaredOnce_packageItems distinct rfl spared made⟩

/-- Two kinds of pets, told apart by a tag. -/
def pets : Schema :=
  ⟨⟨.discriminator "kind"
      [("cat", ⟨.properties [] [] false, false, .empty⟩),
       ("dog", ⟨.properties [] [] false, false, .empty⟩)], false, .empty⟩, []⟩

def petsCatalog : Catalog where
  declarations :=
    [⟨0, ["root"], .union "kind" [1, 2], .empty, false, none, .root⟩,
     ⟨1, ["root", "cat"], .variant 0 "cat" [] false, .empty, false, some 0,
       Pointer.root.descend ["mapping", "cat"]⟩,
     ⟨2, ["root", "dog"], .variant 0 "dog" [] false, .empty, false, some 0,
       Pointer.root.descend ["mapping", "dog"]⟩]
  named := []

theorem ofSchema_pets : Catalog.ofSchema pets "root" = petsCatalog := by
  simp [Catalog.ofSchema, pets, petsCatalog, Catalog.topLevels, Catalog.topLevel,
    Catalog.shapeOf?, Catalog.variantsOf, Catalog.membersOf, Catalog.merge, Node.form,
    Node.metadata, Node.nullable, Keyed.keys]

theorem spared_pets : Spared (Catalog.ofSchema pets "root") := by
  rw [ofSchema_pets]
  constructor
  · intro d member tag variants shape
    simp only [petsCatalog, List.mem_cons, List.not_mem_nil, or_false] at member
    rcases member with rfl | rfl | rfl
    · cases shape
      decide +kernel
    · cases shape
    · cases shape
  · intro d member parent tagValue members additional shape
    simp only [petsCatalog, List.mem_cons, List.not_mem_nil, or_false] at member
    rcases member with rfl | rfl | rfl
    · cases shape
    · cases shape
      decide +kernel
    · cases shape
      decide +kernel

theorem declaredOnce_render_pets :
    ∃ rendered head items,
      Target.render ⟨.go, "p"⟩ (Catalog.ofSchema pets "root") = .ok rendered ∧
        rendered.files = [packageFile "p" head (items.map Item.decl)] ∧ DeclaredOnce items := by
  have renders : ∃ r, Target.render ⟨.go, "p"⟩ (Catalog.ofSchema pets "root") = .ok r := by
    rw [ofSchema_pets]
    exact exists_of_isOk (by decide +kernel)
  obtain ⟨rendered, renders⟩ := renders
  obtain ⟨head, items, -, printed, -, once⟩ := declaredOnce_render pets "root" "p" rendered renders
  exact ⟨rendered, head, items, renders, printed, once spared_pets⟩

/-- Some field is named like a method of its type. -/
def methodHidden (items : List Item) : Bool :=
  items.any fun i => i.methods.any fun m => i.fields.contains m.name

/-- Some envelope has two fields of one name. -/
def tagHidden (items : List Item) : Bool :=
  items.any fun i => i.envelopes.any fun e => e.embedded = .name e.tag.name

theorem not_declaredOnce_of_methodHidden {items : List Item} (hidden : methodHidden items = true) :
    ¬ DeclaredOnce items := by
  intro once
  obtain ⟨i, member, hidden⟩ := List.any_eq_true.1 hidden
  obtain ⟨m, method, hidden⟩ := List.any_eq_true.1 hidden
  exact once.methods i member m method (List.contains_iff_mem.1 hidden)

theorem not_declaredOnce_of_tagHidden {items : List Item} (hidden : tagHidden items = true) :
    ¬ DeclaredOnce items := by
  intro once
  obtain ⟨i, member, hidden⟩ := List.any_eq_true.1 hidden
  obtain ⟨e, envelope, hidden⟩ := List.any_eq_true.1 hidden
  exact once.envelopes i member e envelope (of_decide_eq_true hidden)

/-- The items that are printed for a text. -/
def PackageOf (text rootName : String) (items : List Item) : Prop :=
  ∃ schema rendered head, Schema.ofText text = .ok schema ∧
    Target.render ⟨.go, "p"⟩ (Catalog.ofSchema schema rootName) = .ok rendered ∧
    rendered.files = [packageFile "p" head (items.map Item.decl)]

theorem exists_packageOf (text rootName : String) (test : List Item → Bool)
    (found : (Schema.ofText text).toOption.any (fun schema =>
      (Target.render ⟨.go, "p"⟩ (Catalog.ofSchema schema rootName)).isOk &&
        (packageItems (namedFor .go schema rootName)).toOption.any test) = true) :
    ∃ items, PackageOf text rootName items ∧ test items = true := by
  cases read : Schema.ofText text with
  | error fault =>
    rw [read] at found
    cases found
  | ok schema =>
    rw [read] at found
    obtain ⟨renders, found⟩ := Bool.and_eq_true_iff.1 found
    obtain ⟨rendered, renders⟩ := exists_of_isOk renders
    obtain ⟨head, items, made, printed⟩ := exists_items_of_render renders
    rw [made] at found
    exact ⟨items, ⟨schema, rendered, head, read, renders, printed⟩, found⟩

/-- A tag value that is spelled like a method. -/
def marshalText : String :=
  "\x7b\"discriminator\":\"kind\",\"mapping\":\x7b\"marshal_json\":\x7b\"properties\":" ++
    "\x7b\x7d\x7d\x7d\x7d"

/-- A variant that is named like the field for the tag. -/
def tagText : String :=
  "\x7b\"discriminator\":\"kind\",\"mapping\":\x7b\"t\":\x7b\"properties\":" ++
    "\x7b\x7d\x7d\x7d\x7d"

/-- Raw names that are not spared are written as they are: a field hides the method that marshals
its type, and an envelope has two fields of one name. -/
theorem declared_twice :
    (∃ items, PackageOf marshalText "root" items ∧ ¬ DeclaredOnce items) ∧
      ∃ items, PackageOf tagText "" items ∧ ¬ DeclaredOnce items := by
  constructor
  · obtain ⟨items, package, hidden⟩ :=
      exists_packageOf marshalText "root" methodHidden (by decide +kernel)
    exact ⟨items, package, not_declaredOnce_of_methodHidden hidden⟩
  · obtain ⟨items, package, hidden⟩ :=
      exists_packageOf tagText "" tagHidden (by decide +kernel)
    exact ⟨items, package, not_declaredOnce_of_tagHidden hidden⟩

end SchemaBindings.Binding.GoPackage
