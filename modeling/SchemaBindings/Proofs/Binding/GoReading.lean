import SchemaBindings.Proofs.Binding.GoLines
import SchemaBindings.Proofs.Binding.Readers

/-! What the text of a Go declaration tells of its draft. -/

namespace SchemaBindings.Binding

open Naming (IsIdentifier Capital)
open Text (quoted? splitAtEach)

namespace GoPackage

section Tags

theorem plain_of_isTagName {name : String} (valid : isTagName name = true) :
    name.toList ≠ [] ∧ ∀ c ∈ name.toList, c ≠ ',' ∧ c ≠ '"' := by
  simp only [isTagName, Bool.and_eq_true, Bool.not_eq_true', List.all_eq_true] at valid
  obtain ⟨some', each⟩ := valid
  refine ⟨fun empty => ?_, fun c member => ⟨?_, ?_⟩⟩
  · rw [String.toList_eq_nil_iff.1 empty] at some'
    cases some'
  · rintro rfl
    exact absurd (each _ member) (by decide +kernel)
  · rintro rfl
    exact absurd (each _ member) (by decide +kernel)

theorem readTag?_of_split {name : String} {tag : List Char} {options : List (List Char)}
    (cut : splitAtEach (· == ',') tag = name.toList :: options) (some' : name.toList ≠ [])
    (shown : name ≠ "-") : readTag? tag = some (name, options) := by
  have hidden : ¬ (name.toList = [] ∨ name.toList = ['-'] ∧ options = []) := by
    rintro (empty | ⟨hyphen, -⟩)
    · exact some' empty
    · exact shown (String.toList_inj.1 hyphen)
  rw [readTag?, cut]
  simp only [if_neg hidden, String.ofList_toList]

/-- A struct tag gives back the wire name that it is made from, whatever options follow. -/
theorem readTag?_tagName {name tag : String} {here : Pointer}
    (made : tagName name here = .ok tag) (required : Bool) :
    ∃ options, readTag? (tag.toList ++ (if required then "" else ",omitempty").toList) =
      some (name, options) ∧ options.contains "omitempty".toList = !required := by
  unfold tagName at made
  split at made
  · cases made
  · rename_i valid
    obtain ⟨some', plain⟩ := plain_of_isTagName (by simpa using valid)
    split at made
    · rename_i hyphen
      subst hyphen
      cases made
      cases required
      · exact ⟨[[], "omitempty".toList], by decide, by decide⟩
      · exact ⟨[[]], by decide, by decide⟩
    · rename_i shown
      cases made
      have single : splitAtEach (· == ',') name.toList = [name.toList] :=
        Text.splitAtEach_of_forall_not fun c member => beq_false_of_ne (plain c member).1
      cases required
      · have parts : splitAtEach (· == ',') (name.toList ++ ',' :: "omitempty".toList) =
            splitAtEach (· == ',') name.toList ++ splitAtEach (· == ',') "omitempty".toList :=
          Text.splitAtEach_append_separator _ rfl _
        rw [single] at parts
        exact ⟨["omitempty".toList], readTag?_of_split parts some' shown, by decide⟩
      · have parts : splitAtEach (· == ',') (name.toList ++ "".toList) = [name.toList] := by
          rwa [show "".toList = [] from rfl, List.append_nil]
        exact ⟨[], readTag?_of_split parts some' shown, rfl⟩

/-- No character of a struct tag ends it. -/
theorem unquoted_tagName {name tag : String} {here : Pointer}
    (made : tagName name here = .ok tag) : '"' ∉ tag.toList := by
  unfold tagName at made
  split at made
  · cases made
  · rename_i valid
    split at made
    · cases made
      decide
    · cases made
      exact fun quote => ((plain_of_isTagName (by simpa using valid)).2 _ quote).2 rfl

theorem tagIn?_append {type inside : List Char} (plain : ∀ c ∈ type, c ≠ '\x60')
    (unquoted : '"' ∉ inside) (rest : List Char) :
    tagIn? (type ++ (" \x60json:\"".toList ++ (inside ++ '"' :: rest))) = readTag? inside := by
  have start : (type ++ (" \x60json:\"".toList ++ (inside ++ '"' :: rest))).dropWhile
      (· != '\x60') = "\x60json:\"".toList ++ (inside ++ '"' :: rest) := by
    rw [List.dropWhile_append_of_pos fun c member => bne_iff_ne.2 (plain c member)]
    rfl
  have close : (inside ++ '"' :: rest).takeWhile (· != '"') = inside := by
    have plain : ∀ c ∈ inside, (c != '"') = true := by
      intro c member
      refine bne_iff_ne.2 ?_
      rintro rfl
      exact unquoted member
    rw [List.takeWhile_append_of_pos plain]
    exact List.append_nil _
  rw [tagIn?, start, behind?_append, Option.bind_some, close]

end Tags

section Lines

/-- Behind one tab, what is exported is a member or a constant. -/
theorem tokens_exported {name : String} (named : IsIdentifier name) (capital : Capital name)
    (rest : List Char) :
    Binding.tokens .go ("\t".toList ++ (name.toList ++ (" ".toList ++ rest))) =
      memberTokens name rest := by
  have word : word? (name.toList ++ (" ".toList ++ rest)) = some (name.toList, " ".toList ++ rest) :=
    word?_identifier named rfl
  obtain ⟨c, others, chars, upper⟩ := capital
  change GoPackage.tokens ("\t".toList ++ (name.toList ++ (" ".toList ++ rest))) = _
  rw [GoPackage.tokens, behind?_append]
  simp only [word]
  change innerTokens name.toList (' ' :: rest) = _
  rw [innerTokens, chars, List.head?_cons, Option.any_some, if_pos upper, ← chars,
    String.ofList_toList]

/-- A member with a struct tag. -/
theorem lineTokens_field {name type wireName tag : String} (named : IsIdentifier name)
    (capital : Capital name) (plain : ∀ c ∈ type.toList, c ≠ '\x60') {here : Pointer}
    (made : tagName wireName here = .ok tag) (required : Bool) :
    lineTokens .go ["\t" ++ name ++ " " ++ type ++ " \x60json:\"" ++ tag ++
      (if required then "" else ",omitempty") ++ "\"\x60"] =
        .wireName wireName :: (if required then [] else [.optional]) ++ [.member none] := by
  obtain ⟨options, read, omitted⟩ := readTag?_tagName made required
  have unquoted : '"' ∉ tag.toList ++ (if required then "" else ",omitempty").toList := by
    refine fun quote => (List.mem_append.1 quote).elim (unquoted_tagName made) ?_
    cases required <;> decide
  have found := tagIn?_append plain unquoted ['\x60']
  rw [read] at found
  rw [lineTokens_singleton]
  simp only [String.toList_append, List.append_assoc] at found ⊢
  have last : (type.toList ++ (" \x60json:\"".toList ++ (tag.toList ++
      ((if required then "" else ",omitempty").toList ++ "\"\x60".toList)))).getLast? =
        some '\x60' := by
    simp [List.getLast?_append, List.getLast?_cons]
  rw [tokens_exported named capital, memberTokens, if_pos last]
  change (tagIn? (type.toList ++ (" \x60json:\"".toList ++ (tag.toList ++
    ((if required then "" else ",omitempty").toList ++ ['"', '\x60']))))).elim [] _ = _
  rw [found]
  simp only [Option.elim_some, omitted]
  cases required <;> rfl

theorem lineTokens_constant {name type : String} (named : IsIdentifier name)
    (capital : Capital name) (typed : IsIdentifier type) (value : String) :
    lineTokens .go ["\t" ++ name ++ " " ++ type ++ " = " ++ Text.jsonString value] =
      [.wireName value, .constant name] := by
  have last : (type.toList ++ (" = ".toList ++ (Text.jsonString value).toList)).getLast? =
      some '"' := by
    simp [Text.jsonString, List.getLast?_append, List.getLast?_cons]
  have start : (type.toList ++ (" = ".toList ++ (Text.jsonString value).toList)).dropWhile
      isWordChar = " = ".toList ++ (Text.jsonString value).toList := by
    rw [List.dropWhile_append_of_pos (isWordChar_of_isIdentifier typed)]
    rfl
  have quoted := Text.quoted?_jsonString value []
  rw [List.append_nil] at quoted
  rw [lineTokens_singleton]
  simp only [String.toList_append, List.append_assoc]
  rw [tokens_exported named capital, memberTokens, last, if_neg (by decide), if_pos rfl, start,
    behind?_append, Option.bind_some, quoted, Option.elim_some]

/-- A member without a struct tag. -/
theorem lineTokens_typed {name type : String} (named : IsIdentifier name) (capital : Capital name)
    (typed : IsIdentifier type) :
    lineTokens .go ["\t" ++ name ++ " " ++ type] = [.entry (.typed name type)] := by
  have last (c : Char) (other : isWordChar c = false) : type.toList.getLast? ≠ some c := by
    intro last
    have inside := isWordChar_of_isIdentifier typed c (List.mem_of_getLast? last)
    rw [other] at inside
    cases inside
  rw [lineTokens_singleton]
  simp only [String.toList_append, List.append_assoc]
  rw [tokens_exported named capital, memberTokens, if_neg (last _ (by decide)),
    if_neg (last _ (by decide)), String.ofList_toList]

theorem lineTokens_case (value : String) :
    lineTokens .go ["\tcase " ++ Text.jsonString value ++ ":"] = [.wireName value] := by
  have cut (rest : List Char) : Binding.tokens .go ("\tcase ".toList ++ rest) =
      (quoted? rest).elim [] fun read => [.wireName read.1] := rfl
  rw [lineTokens_singleton, String.toList_append, String.toList_append, List.append_assoc, cut,
    Text.quoted?_jsonString, Option.elim_some]

theorem lineTokens_embedded {type : String} (typed : IsIdentifier type) :
    lineTokens .go ["\t\t\t" ++ type] = [.variant type] := by
  have cut (rest : List Char) :
      Binding.tokens .go ("\t\t\t".toList ++ rest) = embeddedTokens rest := rfl
  have word : word? (type.toList ++ []) = some (type.toList, []) := word?_identifier typed rfl
  rw [List.append_nil] at word
  rw [lineTokens_singleton, String.toList_append, cut, embeddedTokens, word]
  exact congrArg (fun text => [Token.variant text]) String.ofList_toList

theorem lineTokens_decoding {member : String} (named : IsIdentifier member) :
    lineTokens .go ["\t\terr = json.Unmarshal(b, &v." ++ member ++ ")"] = [.decoding member] := by
  have cut (rest : List Char) : Binding.tokens .go
      ("\t\terr = json.Unmarshal(b, &v.".toList ++ rest) =
        (word? rest).elim [] fun read => [.decoding (.ofList read.1)] := rfl
  rw [lineTokens_singleton, String.toList_append, String.toList_append, List.append_assoc, cut,
    word?_identifier named (by decide), Option.elim_some, String.ofList_toList]

/-- The member with the tag, in the struct that is written and in the one that is read. -/
theorem lineTokens_tag {wireName tag : String} {here : Pointer}
    (made : tagName wireName here = .ok tag) :
    lineTokens .go ["\t\t\tT " ++ "string" ++ " \x60json:\"" ++ tag ++ "\"\x60"] =
        [.entry (.tag wireName)] ∧
      lineTokens .go ["\t\tT " ++ "string" ++ " \x60json:\"" ++ tag ++ "\"\x60"] =
        [.entry (.tag wireName)] := by
  obtain ⟨options, read, -⟩ := readTag?_tagName made true
  have plain : ∀ c ∈ "string".toList, c ≠ '\x60' := by
    rintro c member rfl
    exact absurd member (by decide)
  have found := tagIn?_append plain (unquoted_tagName made) ['\x60']
  rw [if_pos rfl, show "".toList = [] from rfl, List.append_nil] at read
  rw [read] at found
  have told : tagTokens ("T ".toList ++ ("string".toList ++ (" \x60json:\"".toList ++
      (tag.toList ++ "\"\x60".toList)))) = [.entry (.tag wireName)] := by
    rw [tagTokens, behind?_append, Option.bind_some]
    exact congrArg (Option.elim · [] _) found
  have encoded (rest : List Char) : Binding.tokens .go ("\t\t\tT ".toList ++ rest) =
      tagTokens ("T ".toList ++ rest) := rfl
  have decoded (rest : List Char) : Binding.tokens .go ("\t\tT ".toList ++ rest) =
      tagTokens ("T ".toList ++ rest) := rfl
  rw [lineTokens_singleton, lineTokens_singleton]
  simp only [String.toList_append, List.append_assoc] at told ⊢
  rw [encoded, decoded]
  exact ⟨told, told⟩

end Lines

/-- What a field of a struct is read from beside its names. -/
structure FieldRead (f : Field String) : Prop where
  named : IsIdentifier f.name
  capital : Capital f.name
  texts : ∀ text ∈ f.type.texts, ∀ c ∈ text.toList, isWordChar c = true
  tagged : ∃ here, tagName f.wireName here = .ok f.extra

theorem tells_fieldLines (pointed : Nat → Bool) {f : Field String} (read : FieldRead f) :
    Tells .go (fieldLines pointed f.undescribed) [.slot f.slot] := by
  obtain ⟨here, tagged⟩ := read.tagged
  have plain : ∀ c ∈ (fieldType pointed f).toList, c ≠ '\x60' := by
    have spelled : ∀ c, (c.isAlphanum || "\x7b\x7d*[], .".toList.contains c) = true →
        c ≠ '\x60' := by
      rintro c spelled rfl
      exact absurd spelled (by decide)
    refine forall_mem_pointerTo spelled (forall_mem_typeText spelled fun text member c inside => ?_)
    rintro rfl
    exact absurd (read.texts text member _ inside) (by decide)
  have cut := lineTokens_field read.named read.capital plain tagged f.required
  refine tells_of_tokens cut fun rest => ?_
  cases required : f.required <;> simp [entriesFrom, Field.slot, required]

theorem tells_structLines (pointed : Nat → Bool) {name : String} (named : IsIdentifier name)
    {fields : List (Field String)} (read : ∀ f ∈ fields, FieldRead f) :
    Tells .go (structLines pointed name (fields.map Field.undescribed))
      (.name name :: fields.map (.slot ·.slot)) := by
  have head : Tells .go ["type " ++ name ++ " struct \x7b"] [.name name] :=
    tells_declared (fun _ => rfl) named (by decide)
  have close : Tells .go ["\x7d"] [] := tells_nothing rfl
  rw [structLines, List.flatMap_map]
  exact ((head.append (.map fun f member => tells_fieldLines pointed (read f member))).append
    close).congr (by simp)

theorem tells_choiceLines {type : String} (typed : IsIdentifier type) {c : Choice}
    (named : IsIdentifier c.constant) (capital : Capital c.constant) :
    Tells .go (choiceLines type c.undescribed) [.choice c.value c.constant] :=
  tells_of_tokens (lineTokens_constant named capital typed c.value) fun _ => rfl

/-- A union tells its name and the members of its struct; then, case by case, the tag and the
variant that are encoded; then the tag and the members that the variants are decoded into. -/
def unionTold (name tag tagMember : String) (cases : List Case) : List Entry :=
  .name name :: .typed tagMember "string" ::
    cases.map (fun c => .typed c.member c.reference.text) ++
    cases.flatMap (fun c => [.tag tag, .variant c.tagValue c.reference.text]) ++
    .tag tag :: cases.map (fun c => .decoding c.tagValue c.member)

/-- What the struct of a union is read from. -/
structure CaseRead (c : Case) : Prop where
  named : IsIdentifier c.member
  capital : Capital c.member
  typed : IsIdentifier c.reference.text

structure TagRead (tag : String) (t : TagField) : Prop where
  named : IsIdentifier t.member
  capital : Capital t.member
  typed : t.type = "string"
  tagged : ∃ here, tagName tag here = .ok t.tagName

section Unions

variable {tag : String} {t : TagField} {cases : List Case} (tagRead : TagRead tag t)
  (read : ∀ c ∈ cases, CaseRead c)

include tagRead read

theorem tells_unionLines {name : String} (named : IsIdentifier name) :
    Tells .go (unionLines name t cases) (.name name :: .typed t.member "string" ::
      cases.map fun c => .typed c.member c.reference.text) := by
  have string : IsIdentifier "string" := by decide
  have head : Tells .go ["type " ++ name ++ " struct \x7b"] [.name name] :=
    tells_declared (fun _ => rfl) named (by decide)
  have tagged : Tells .go ["\t" ++ t.member ++ " " ++ t.type] [.typed t.member "string"] := by
    rw [tagRead.typed]
    exact tells_of_tokens (lineTokens_typed tagRead.named tagRead.capital string) fun _ => rfl
  have members : Tells .go (cases.flatMap fun c => ["\t" ++ c.member ++ " " ++ c.reference.text])
      (cases.map fun c => .typed c.member c.reference.text) :=
    .map fun c member => tells_of_tokens (lineTokens_typed (read c member).named
      (read c member).capital (read c member).typed) fun _ => rfl
  have close : Tells .go ["\x7d"] [] := tells_nothing rfl
  rw [← List.map_eq_flatMap] at members
  exact ((head.append tagged).append (members.append close)).congr (by simp)

theorem tells_marshalLines (name : String) :
    Tells .go (marshalLines name t cases)
      (cases.flatMap fun c => [.tag tag, .variant c.tagValue c.reference.text]) := by
  obtain ⟨here, tagged⟩ := tagRead.tagged
  have encoded := (lineTokens_tag tagged).1
  have case (c : Case) (typed : IsIdentifier c.reference.text) :
      Tells .go (marshalCase t c) [.tag tag, .variant c.tagValue c.reference.text] := by
    have struct' : lineTokens .go ["\t\treturn json.Marshal(struct \x7b"] = [] := rfl
    have given : lineTokens .go ["\t\t\x7d\x7bv." ++ t.member ++ ", v." ++ c.member ++ "\x7d)"] =
        [] := by
      simp only [lineTokens_singleton, String.toList_append]
      rfl
    have cut : lineTokens .go (marshalCase t c) =
        [.wireName c.tagValue, .entry (.tag tag), .variant c.reference.text] := by
      rw [marshalCase, tagRead.typed, lineTokens_cons, lineTokens_cons _ [_, _, _],
        lineTokens_cons _ [_, _], lineTokens_cons _ [_], lineTokens_case, struct', encoded,
        lineTokens_embedded typed, given]
      rfl
    exact tells_of_tokens cut fun _ => rfl
  have head : Tells .go ["func (v " ++ name ++ ") MarshalJSON() ([]byte, error) \x7b",
      "\tswitch v." ++ t.member ++ " \x7b"] [] := by
    refine tells_nothing ?_
    rw [lineTokens_cons, lineTokens_singleton, lineTokens_singleton]
    simp only [String.toList_append]
    rfl
  have fails : Tells .go ["\t\x7d", "", "\treturn nil, fmt.Errorf(\"bad " ++ t.member ++
      " value: %s\", v." ++ t.member ++ ")", "\x7d"] [] := by
    refine tells_nothing ?_
    simp only [lineTokens, List.flatMap_cons, List.flatMap_nil, String.toList_append]
    rfl
  exact ((head.append (.flatMap fun c member => case c (read c member).typed)).append
    fails).congr (by simp)

theorem tells_unmarshalLines (name : String) :
    Tells .go (unmarshalLines name t cases)
      (.tag tag :: cases.map fun c => .decoding c.tagValue c.member) := by
  obtain ⟨here, tagged⟩ := tagRead.tagged
  have decoded := (lineTokens_tag tagged).2
  have case (c : Case) (named : IsIdentifier c.member) :
      Tells .go (unmarshalCase c) [.decoding c.tagValue c.member] := by
    have cut : lineTokens .go (unmarshalCase c) = [.wireName c.tagValue, .decoding c.member] := by
      rw [unmarshalCase, lineTokens_cons, lineTokens_case, lineTokens_decoding named]
      rfl
    exact tells_of_tokens cut fun _ => rfl
  have head : Tells .go ["func (v *" ++ name ++ ") UnmarshalJSON(b []byte) error \x7b",
      "\tvar t struct \x7b"] [] := by
    refine tells_nothing ?_
    rw [lineTokens_cons, lineTokens_singleton, lineTokens_singleton]
    simp only [String.toList_append]
    rfl
  have first : Tells .go ["\t\tT " ++ t.type ++ " \x60json:\"" ++ t.tagName ++ "\"\x60"]
      [.tag tag] := by
    rw [tagRead.typed]
    exact tells_of_tokens decoded fun _ => rfl
  have switch : Tells .go ["\t\x7d", "", "\tif err := json.Unmarshal(b, &t); err != nil \x7b",
      "\t\treturn err", "\t\x7d", "", "\tvar err error", "\tswitch t.T \x7b"] [] :=
    tells_nothing rfl
  have close : Tells .go ["\tdefault:", "\t\terr = fmt.Errorf(\"bad " ++ t.member ++
      " value: %s\", t.T)", "\t\x7d", "", "\tif err != nil \x7b", "\t\treturn err", "\t\x7d", "",
      "\tv." ++ t.member ++ " = t.T", "\treturn nil", "\x7d"] [] := by
    refine tells_nothing ?_
    simp only [lineTokens, List.flatMap_cons, List.flatMap_nil, String.toList_append]
    rfl
  exact ((((head.append first).append switch).append
    (.map fun c member => case c (read c member).named)).append close).congr (by simp)

end Unions

theorem tells_bodyLines (pointed : Nat → Bool) {name : String} (named : IsIdentifier name)
    {tag : Option TagField} {body : Body String} (fields : ∀ f ∈ body.fields, FieldRead f)
    (choices : ∀ values, body = .enumeration values → ∀ c ∈ values,
      IsIdentifier c.constant ∧ Capital c.constant)
    (union : ∀ wireName cases, body = .union wireName cases →
      ∃ t, tag = some t ∧ TagRead wireName t ∧ ∀ c ∈ cases, CaseRead c) :
    Tells .go (bodyLines pointed name tag body.undescribed)
      (body.told name [] (fun wireName cases =>
        unionTold name wireName ((tag.map TagField.member).getD "") cases) fun _ => []) := by
  cases body with
  | record own additional => exact tells_structLines pointed named fields
  | variant base tagValue own additional =>
    have told : Tells .go (structLines pointed name (own.map Field.undescribed))
        (.name name :: own.map (.slot ·.slot)) := tells_structLines pointed named fields
    exact told.congr (by simp [Body.told])
  | enumeration values =>
    have each := choices values rfl
    have inner : Tells .go (values.flatMap fun c => choiceLines name c.undescribed)
        (values.map fun c => .choice c.value c.constant) :=
      .map fun c member => tells_choiceLines named (each c member).1 (each c member).2
    have head : Tells .go ["type " ++ name ++ " string"] [.name name] :=
      tells_declared (fun _ => rfl) named (by decide)
    have open' : Tells .go ["", "const ("] [] := tells_nothing rfl
    have close : Tells .go [")"] [] := tells_nothing rfl
    rw [Body.undescribed, Body.redescribe, bodyLines, List.flatMap_map]
    exact (((head.append open').append inner).append close).congr (by simp [Body.told])
  | union wireName cases' =>
    obtain ⟨t, rfl, tagRead, read⟩ := union wireName cases' rfl
    have blank : Tells .go [""] [] := tells_nothing rfl
    exact (((((tells_unionLines tagRead read named).append blank).append
      (tells_marshalLines tagRead read name)).append blank).append
        (tells_unmarshalLines tagRead read name)).congr (by simp [Body.told, unionTold])
  | wrapper inner =>
    have renamed :
        Tells .go ["type " ++ name ++ (" = " ++ typeText pointed inner)] [.name name] := by
      refine tells_declared (fun _ => rfl) named ?_
      rw [String.toList_append]
      rfl
    have plain : Tells .go ["type " ++ name ++ (" " ++ typeText pointed inner)] [.name name] := by
      refine tells_declared (fun _ => rfl) named ?_
      rw [String.toList_append]
      rfl
    rw [← String.append_assoc] at renamed plain
    cases inner with
    | declared id reference nullable => exact renamed
    | _ => exact plain

end GoPackage

end SchemaBindings.Binding
