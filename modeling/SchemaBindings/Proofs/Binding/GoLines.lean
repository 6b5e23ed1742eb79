import SchemaBindings.Proofs.Binding.Printable

/-! What is left of a declaration of a Go package without doc comments: the declaration
that is written without descriptions. -/

namespace SchemaBindings.Binding

open Naming (IsIdentifier)
open Text (OneLine)

namespace GoPackage

structure TagField.Printable (t : TagField) : Prop where
  member : IsIdentifier t.member
  type : OneLine t.type.toList
  tagName : OneLine t.tagName.toList

theorem oneLine_of_isIdentifierText {text : List Char} (identifier : isIdentifier text = true) :
    OneLine text := by
  cases text with
  | nil => exact List.not_mem_nil
  | cons c rest =>
    simp only [isIdentifier, Bool.and_eq_true, Bool.or_eq_true, beq_iff_eq,
      List.all_eq_true] at identifier
    intro feed
    rcases List.mem_cons.1 feed with rfl | feed
    · exact absurd identifier.1 (by decide)
    · exact absurd (identifier.2 _ feed) (by decide)

/-- The tags of a draft stay on their lines as well, and what is embedded is a name. -/
structure Printable (d : Draft (Option TagField) String) : Prop where
  spelled : d.Printable
  tags : ∀ f ∈ d.body.fields, OneLine f.extra.toList
  union : ∀ t, d.extra = some t → t.Printable
  embeds : ∀ reference ∈ d.body.references, isEmbeddable reference.text = true

theorem oneLine_of_isEmbeddable {text : String} (embeds : isEmbeddable text = true) :
    OneLine text.toList := by
  obtain ⟨-, parts⟩ := Bool.and_eq_true_iff.1 embeds
  intro feed
  obtain ⟨piece, listed, inside⟩ := Text.exists_piece_of_mem (· == '.') feed (by decide)
  exact oneLine_of_isIdentifierText (List.all_eq_true.1 parts piece listed) inside

theorem begun_of_isEmbeddable {indent text : String} (blank : Blank indent.toList)
    (embeds : isEmbeddable text = true) : Begun (indent ++ text) := by
  obtain ⟨-, parts⟩ := Bool.and_eq_true_iff.1 embeds
  have identifiers := List.all_eq_true.1 parts
  refine begun_of_head blank (oneLine_of_isEmbeddable embeds) ?_
  cases chars : text.toList with
  | nil => exact absurd (identifiers [] (by rw [chars]; decide)) (by decide)
  | cons c rest =>
    rw [chars, Text.splitAtEach] at identifiers
    split at identifiers
    · exact absurd (identifiers [] List.mem_cons_self) (by decide)
    · cases pieces : Text.splitAtEach (· == '.') rest with
      | nil => exact absurd pieces (Text.splitAtEach_ne_nil rest)
      | cons piece others =>
        rw [pieces] at identifiers
        have first := identifiers _ List.mem_cons_self
        simp only [isIdentifier, Bool.and_eq_true, Bool.or_eq_true, beq_iff_eq] at first
        have plain : c ≠ ' ' ∧ c ≠ '\t' ∧ c ≠ '/' := by
          refine ⟨?_, ?_, ?_⟩ <;> rintro rfl <;> exact absurd first.1 (by decide)
        simp [isIndentation, plain]

section Types

variable {P : Char → Prop}
  (spelled : ∀ c, (c.isAlphanum || "\x7b\x7d*[], .".toList.contains c) = true → P c)

include spelled

theorem forall_mem_pointerTo {pointed : Bool} {text : String} (each : ∀ c ∈ text.toList, P c) :
    ∀ c ∈ (pointerTo pointed text).toList, P c := by
  cases pointed with
  | false => exact each
  | true =>
    rw [pointerTo, if_pos rfl, String.toList_append]
    exact List.forall_mem_append.2 ⟨List.forall_mem_singleton.2 (spelled _ (by decide)), each⟩

/-- What a type is spelled with beside names and hints. -/
theorem forall_mem_typeText {pointed : Nat → Bool} {type : TypeExpr}
    (texts : ∀ text ∈ type.texts, ∀ c ∈ text.toList, P c) :
    ∀ c ∈ (typeText pointed type).toList, P c := by
  have fixed {text : String} (plain : (text.toList.all fun c =>
      c.isAlphanum || "\x7b\x7d*[], .".toList.contains c) = true) : ∀ c ∈ text.toList, P c :=
    fun c member => spelled c (List.all_eq_true.1 plain c member)
  induction type generalizing pointed with
  | verbatim text => exact texts text List.mem_cons_self
  | anything =>
    have plain : ("interface\x7b\x7d".toList.all fun c =>
        c.isAlphanum || "\x7b\x7d*[], .".toList.contains c) = true := by decide
    exact fixed plain
  | primitive p nullable =>
    exact forall_mem_pointerTo spelled (fixed (by cases p <;> decide))
  | elements container item nullable ih =>
    obtain ⟨outer, inner⟩ := List.forall_mem_append.1 texts
    cases container with
    | none =>
      rw [typeText, String.toList_append]
      exact List.forall_mem_append.2 ⟨fixed (by decide), ih inner⟩
    | some container =>
      simp only [typeText, String.toList_append, List.forall_mem_append]
      exact ⟨⟨⟨outer _ List.mem_cons_self, fixed (by decide)⟩, ih inner⟩, fixed (by decide)⟩
  | values container item nullable ih =>
    obtain ⟨outer, inner⟩ := List.forall_mem_append.1 texts
    cases container with
    | none =>
      rw [typeText, String.toList_append]
      exact List.forall_mem_append.2 ⟨fixed (by decide), ih inner⟩
    | some container =>
      simp only [typeText, String.toList_append, List.forall_mem_append]
      exact ⟨⟨⟨outer _ List.mem_cons_self, fixed (by decide)⟩, ih inner⟩, fixed (by decide)⟩
  | declared id reference nullable =>
    exact forall_mem_pointerTo spelled (texts _ List.mem_cons_self)

end Types

theorem oneLine_typeText {pointed : Nat → Bool} {type : TypeExpr}
    (texts : ∀ text ∈ type.texts, OneLine text.toList) :
    OneLine (typeText pointed type).toList := by
  have plain : ∀ c ∈ (typeText pointed type).toList, c ≠ '\n' := by
    refine forall_mem_typeText ?_ fun text member c inside => ?_
    · rintro c spelled rfl
      exact absurd spelled (by decide)
    · rintro rfl
      exact texts text member inside
  exact fun feed => plain _ feed rfl

theorem oneLine_fieldType {pointed : Nat → Bool} {f : Field String} (printable : f.Printable) :
    OneLine (fieldType pointed f).toList := by
  have plain : ∀ c ∈ (fieldType pointed f).toList, c ≠ '\n' := by
    refine forall_mem_pointerTo ?_ fun c inside => ?_
    · rintro c spelled rfl
      exact absurd spelled (by decide)
    · rintro rfl
      exact oneLine_typeText printable.texts inside
  exact fun feed => plain _ feed rfl

theorem leaves_comment (described : Option String) :
    Leaves .go (lineComment "// " described) [] :=
  leaves_lineComment judged_go (by decide) (fun _ => rfl) (by decide) described

theorem leaves_innerComment (described : Option String) :
    Leaves .go (lineComment "\t// " described) [] :=
  leaves_lineComment judged_go (by decide) (fun _ => rfl) (by decide) described

theorem leaves_fieldLines (pointed : Nat → Bool) {f : Field String} (printable : f.Printable)
    (tag : OneLine f.extra.toList) :
    Leaves .go (fieldLines pointed f) (fieldLines pointed f.undescribed) := by
  have option : OneLine (if f.required then "" else ",omitempty").toList := by
    cases f.required <;> decide
  have line : Begun ("\t" ++ f.name ++ " " ++ fieldType pointed f ++ " \x60json:\"" ++ f.extra ++
      (if f.required then "" else ",omitempty") ++ "\"\x60") :=
    .append (.append (.append (.append (.append (.append (begun_of_isIdentifier (by decide)
      printable.named) (by decide)) (oneLine_fieldType printable))
      (by decide)) tag) option) (by decide)
  exact (leaves_innerComment f.described).append (leaves_begun line)

theorem leaves_structLines (pointed : Nat → Bool) {name : String} {fields : List (Field String)}
    (named : IsIdentifier name) (each : ∀ f ∈ fields, f.Printable)
    (tags : ∀ f ∈ fields, OneLine f.extra.toList) :
    Leaves .go (structLines pointed name fields)
      (structLines pointed name (fields.map Field.undescribed)) := by
  have head : Begun ("type " ++ name ++ " struct \x7b") :=
    .append (.append (by decide) (oneLine_of_isIdentifier named)) (by decide)
  rw [structLines, structLines, List.flatMap_map]
  exact ((leaves_begun head).append (.flatMap fun f member =>
    leaves_fieldLines pointed (each f member) (tags f member))).append (leaves_code (by decide))

theorem leaves_choiceLines {type : String} (single : OneLine type.toList) (c : Choice)
    (named : IsIdentifier c.constant) :
    Leaves .go (choiceLines type c) (choiceLines type c.undescribed) := by
  have line : Begun ("\t" ++ c.constant ++ " " ++ type ++ " = " ++ Text.jsonString c.value) :=
    .append (.append (.append (.append (begun_of_isIdentifier (by decide) named) (by decide))
      single) (by decide)) (Text.oneLine_jsonString _)
  exact (leaves_innerComment c.described).append (leaves_begun line)

section Unions

variable {name : String} {t : TagField} {cases : List Case} (named : IsIdentifier name)
  (tagged : t.Printable)
  (each : ∀ c ∈ cases, IsIdentifier c.member ∧ isEmbeddable c.reference.text = true)

include named tagged each

theorem leaves_unionLines : Leaves .go (unionLines name t cases) (unionLines name t cases) := by
  have head : Begun ("type " ++ name ++ " struct \x7b") :=
    .append (.append (by decide) (oneLine_of_isIdentifier named)) (by decide)
  have tag : Begun ("\t" ++ t.member ++ " " ++ t.type) :=
    .append (.append (begun_of_isIdentifier (by decide) tagged.member) (by decide)) tagged.type
  refine ((Leaves.cons (leaves_begun head) (leaves_begun tag)).append (leaves_codes
    (List.forall_mem_map.2 fun c member => ?_))).append (leaves_code (by decide))
  obtain ⟨named, embeds⟩ := each c member
  have line : Begun ("\t" ++ c.member ++ " " ++ c.reference.text) :=
    .append (.append (begun_of_isIdentifier (by decide) named) (by decide))
      (oneLine_of_isEmbeddable embeds)
  exact line.code

theorem leaves_marshalLines :
    Leaves .go (marshalLines name t cases) (marshalLines name t cases) := by
  have tag := oneLine_of_isIdentifier tagged.member
  have head : Begun ("func (v " ++ name ++ ") MarshalJSON() ([]byte, error) \x7b") :=
    .append (.append (by decide) (oneLine_of_isIdentifier named)) (by decide)
  have switch : Begun ("\tswitch v." ++ t.member ++ " \x7b") :=
    .append (.append (by decide) tag) (by decide)
  have fails : Begun ("\treturn nil, fmt.Errorf(\"bad " ++ t.member ++ " value: %s\", v." ++
      t.member ++ ")") :=
    .append (.append (.append (.append (by decide) tag) (by decide)) tag) (by decide)
  have field : Begun ("\t\t\tT " ++ t.type ++ " \x60json:\"" ++ t.tagName ++ "\"\x60") :=
    .append (.append (.append (.append (by decide) tagged.type) (by decide)) tagged.tagName)
      (by decide)
  refine ((Leaves.cons (leaves_begun head) (leaves_begun switch)).append (.flatMap fun c member =>
    ?_)).append (.cons (leaves_code (by decide)) (.cons (leaves_code (by decide))
      (.cons (leaves_begun fails) (leaves_code (by decide)))))
  obtain ⟨named, embeds⟩ := each c member
  have value : Begun ("\tcase " ++ Text.jsonString c.tagValue ++ ":") :=
    .append (.append (by decide) (Text.oneLine_jsonString _)) (by decide)
  have embedded : Begun ("\t\t\t" ++ c.reference.text) :=
    begun_of_isEmbeddable (by decide) embeds
  have written : Begun ("\t\t\x7d\x7bv." ++ t.member ++ ", v." ++ c.member ++ "\x7d)") :=
    .append (.append (.append (.append (by decide) tag) (by decide))
      (oneLine_of_isIdentifier named)) (by decide)
  exact .cons (leaves_begun value) (.cons (leaves_code (by decide)) (.cons (leaves_begun field)
    (.cons (leaves_begun embedded) (leaves_begun written))))

theorem leaves_unmarshalLines :
    Leaves .go (unmarshalLines name t cases) (unmarshalLines name t cases) := by
  have tag := oneLine_of_isIdentifier tagged.member
  have head : Begun ("func (v *" ++ name ++ ") UnmarshalJSON(b []byte) error \x7b") :=
    .append (.append (by decide) (oneLine_of_isIdentifier named)) (by decide)
  have field : Begun ("\t\tT " ++ t.type ++ " \x60json:\"" ++ t.tagName ++ "\"\x60") :=
    .append (.append (.append (.append (by decide) tagged.type) (by decide)) tagged.tagName)
      (by decide)
  have fails : Begun ("\t\terr = fmt.Errorf(\"bad " ++ t.member ++ " value: %s\", t.T)") :=
    .append (.append (by decide) tag) (by decide)
  have told : Begun ("\tv." ++ t.member ++ " = t.T") := .append (.append (by decide) tag) (by decide)
  refine ((Leaves.cons (leaves_begun head) (.cons (leaves_code (by decide))
    (.cons (leaves_begun field) (leaves_codes (by decide))))).append
    (.flatMap fun c member => ?_)).append ?_
  · have value : Begun ("\tcase " ++ Text.jsonString c.tagValue ++ ":") :=
      .append (.append (by decide) (Text.oneLine_jsonString _)) (by decide)
    have given : Begun ("\t\terr = json.Unmarshal(b, &v." ++ c.member ++ ")") :=
      .append (.append (by decide) (oneLine_of_isIdentifier (each c member).1)) (by decide)
    exact .cons (leaves_begun value) (leaves_begun given)
  · exact .cons (leaves_code (by decide)) (.cons (leaves_begun fails)
      (.cons (leaves_code (by decide)) (.cons (leaves_code (by decide))
        (.cons (leaves_code (by decide)) (.cons (leaves_code (by decide))
          (.cons (leaves_code (by decide)) (.cons (leaves_code (by decide))
            (.cons (leaves_begun told) (leaves_codes (by decide))))))))))

end Unions

theorem leaves_bodyLines (pointed : Nat → Bool) {d : Draft (Option TagField) String}
    (printable : Printable d) :
    Leaves .go (bodyLines pointed d.name d.extra d.body)
      (bodyLines pointed d.name d.extra d.body.undescribed) := by
  obtain ⟨id, name, described, body, tag⟩ := d
  obtain ⟨⟨named, names, texts⟩, tags, union, embeds⟩ := printable
  obtain ⟨types, -⟩ := List.forall_mem_append.1 texts
  have single := oneLine_of_isIdentifier named
  cases body with
  | record fields additional =>
    exact leaves_structLines pointed named (printable_of_fields names types) tags
  | variant base tagValue fields additional =>
    exact leaves_structLines pointed named (printable_of_fields names types) tags
  | enumeration choices =>
    have head : Begun ("type " ++ name ++ " string") :=
      .append (.append (by decide) single) (by decide)
    rw [bodyLines, Body.undescribed, Body.redescribe, bodyLines, List.flatMap_map]
    exact ((Leaves.cons (leaves_begun head) (leaves_codes (by decide))).append
      (.flatMap fun c member =>
        leaves_choiceLines single c (names _ (List.mem_map_of_mem member)))).append
        (leaves_code (by decide))
  | union _ cases' =>
    cases tag with
    | none => exact .nil
    | some t =>
      have tagged := union t rfl
      have each : ∀ c ∈ cases', IsIdentifier c.member ∧ isEmbeddable c.reference.text = true :=
        fun c member => ⟨names _ (List.mem_append_left _ (List.mem_map_of_mem member)),
          embeds _ (List.mem_map_of_mem member)⟩
      have blank : Leaves .go [""] [""] := leaves_code (by decide)
      exact ((((leaves_unionLines named tagged each).append blank).append
        (leaves_marshalLines named tagged each)).append blank).append
          (leaves_unmarshalLines named tagged each)
  | wrapper inner =>
    rw [Body.types, List.flatMap_singleton] at types
    have typed : OneLine (typeText pointed inner).toList := oneLine_typeText types
    cases inner with
    | declared target reference nullable =>
      exact leaves_begun (.append (.append (.append (by decide) single) (by decide)) typed)
    | _ => exact leaves_begun (.append (.append (.append (by decide) single) (by decide)) typed)

theorem leaves_itemLines (edges : List (List Nat)) {d : Draft (Option TagField) String}
    (printable : Printable d) : Leaves .go (itemLines edges d) (itemLines edges d.undescribed) :=
  (leaves_comment d.described).append (leaves_bodyLines _ printable)

section Drafts

theorem oneLine_tagName {name tag : String} {here : Pointer} (named : tagName name here = .ok tag) :
    OneLine tag.toList := by
  unfold tagName at named
  split at named
  · cases named
  · rename_i valid
    split at named
    · cases named
      decide
    · cases named
      simp only [isTagName, Bool.not_eq_true, Bool.not_eq_false', Bool.and_eq_true,
        List.all_eq_true] at valid
      intro feed
      exact absurd (valid.2 _ feed) (by decide +kernel)

theorem printable_of_tagField {d : Declaration} {names : Naming.Names}
    (each : names.Each IsIdentifier)
    (hinted : HintTexts (ownKeys .go) (OneLine ·.toList) d.metadata) {extra : Option TagField}
    (read : tagField d names = .ok extra) : ∀ t, extra = some t → t.Printable := by
  rintro t rfl
  unfold tagField at read
  split at read
  · split at read
    · cases read
    · rename_i member known
      obtain ⟨type, typeRead, read⟩ := (bind_eq_ok ..).1 read
      obtain ⟨tag, tagRead, read⟩ := (bind_eq_ok ..).1 read
      cases read
      refine ⟨each.tagMember _ known, ?_, oneLine_tagName tagRead⟩
      cases type with
      | none => exact (by decide : OneLine "string".toList)
      | some text => exact hinted _ List.mem_cons_self _ (string?_eq_some.1 typeRead)
  · cases read

theorem oneLine_tags_of_body {c : NamedCatalog} {names : Naming.Names} {shape : Shape}
    {body : Body String} (bodyOf : BodyOf rules c names shape body) :
    ∀ f ∈ body.fields, OneLine f.extra.toList := by
  have ofFields {members : List (Member × String)} {fields : List (Field String)}
      (read : rules.fields c members = .ok fields) : ∀ f ∈ fields, OneLine f.extra.toList := by
    intro f listed
    obtain ⟨entry, -, own⟩ := fieldOf_of_mem_fields read listed
    exact oneLine_tagName own.extra
  cases bodyOf with
  | record read => exact ofFields read
  | variant _ read => exact ofFields read
  | _ => exact List.forall_mem_nil _

theorem isEmbeddable_of_body {c : NamedCatalog} {names : Naming.Names} {shape : Shape}
    {body : Body String} (bodyOf : BodyOf rules c names shape body) :
    ∀ reference ∈ body.references, isEmbeddable reference.text = true := by
  cases bodyOf with
  | union read =>
    refine List.forall_mem_map.2 fun k listed => ?_
    obtain ⟨entry, -, own⟩ := caseOf_of_mem_cases read listed
    obtain ⟨d, -, checked⟩ := own.checked
    simp only [rules, checkVariant] at checked
    split at checked
    · assumption
    · cases checked
  | _ => exact List.forall_mem_nil _

theorem printable_of_drafts {c : NamedCatalog} (texts : Texts hints (OneLine ·.toList) c)
    (each : ∀ n ∈ c.names, n.Each IsIdentifier)
    (hinted : ∀ d ∈ c.catalog.declarations,
      HintTexts (ownKeys .go) (OneLine ·.toList) d.metadata)
    {drafts : List (Draft (Option TagField) String)} (read : rules.drafts c = .ok drafts) :
    ∀ d ∈ drafts, Printable d := by
  intro d member
  obtain ⟨id, declaration, names, declared, named, drafted⟩ := exists_of_mem_drafts read member
  obtain ⟨-, -, bodyRead⟩ := draft_eq_ok drafted
  have bodyOf := bodyOf_of_body bodyRead
  refine ⟨spelled_of_drafts texts each read d member, oneLine_tags_of_body bodyOf, ?_,
    isEmbeddable_of_body bodyOf⟩
  exact printable_of_tagField (each _ (List.mem_of_getElem? named))
    (hinted _ (List.mem_of_getElem? declared)) (extra_of_draft drafted)

end Drafts

end GoPackage

end SchemaBindings.Binding
