import SchemaBindings.Proofs.Binding.Readers

/-! What the text of a TypeScript declaration tells of its draft. -/

namespace SchemaBindings.Binding

open Naming (IsIdentifier)
open Text (quoted? splitAtEach)

namespace TypeScriptModule

section Types

/-- The text does not start as a literal does. -/
def Unquoted (text : List Char) : Prop := text.head?.all (· != '"') = true

instance (text : List Char) : Decidable (Unquoted text) := inferInstanceAs (Decidable (_ = _))

theorem Unquoted.append {text more : List Char} (first : Unquoted text) (later : Unquoted more) :
    Unquoted (text ++ more) := by
  cases text with
  | nil => exact later
  | cons c rest => exact first

theorem unquoted_of_words {text : List Char} (words : ∀ c ∈ text, isWordChar c = true) :
    Unquoted text := by
  cases text with
  | nil => rfl
  | cons c rest =>
    refine bne_iff_ne.2 ?_
    rintro rfl
    exact absurd (words _ List.mem_cons_self) (by decide)

theorem quoted?_eq_none {text : List Char} (unquoted : Unquoted text) : quoted? text = none := by
  cases text with
  | nil => rfl
  | cons c rest =>
    have other : c ≠ '"' := bne_iff_ne.1 unquoted
    rw [quoted?]
    rintro _ same
    exact other (List.cons.inj same).1

theorem unquoted_typeText {type : TypeExpr}
    (texts : ∀ text ∈ type.texts, ∀ c ∈ text.toList, isWordChar c = true) :
    Unquoted (typeText type).toList := by
  have orNull {text : String} (nullable : Bool) (unquoted : Unquoted text.toList) :
      Unquoted (orNull nullable text).toList := by
    cases nullable with
    | false => exact unquoted
    | true =>
      rw [TypeScriptModule.orNull, if_pos rfl, String.toList_append]
      exact unquoted.append (by decide)
  induction type with
  | verbatim text => exact unquoted_of_words (texts text List.mem_cons_self)
  | anything => exact (by decide : Unquoted "any".toList)
  | primitive p nullable =>
    have words : (primitiveText p).toList.all isWordChar = true := by cases p <;> decide
    exact orNull nullable (unquoted_of_words (List.all_eq_true.1 words))
  | elements container item nullable ih =>
    have inner := ih (List.forall_mem_append.1 texts).2
    refine orNull nullable ?_
    rw [listText]
    split
    · rw [String.toList_append, String.toList_append]
      exact (Unquoted.append (by decide) inner).append (by decide)
    · rw [String.toList_append]
      exact inner.append (by decide)
  | values container item nullable ih =>
    refine orNull nullable ?_
    rw [String.toList_append, String.toList_append, List.append_assoc]
    exact Unquoted.append (by decide)
      ((ih (List.forall_mem_append.1 texts).2).append (by decide))
  | declared id reference nullable =>
    exact orNull nullable (unquoted_of_words (texts _ List.mem_cons_self))

end Types

section Alternatives

theorem alternative?_append {lead rest : List Char} (blank : ∀ c ∈ lead, (c == ' ') = true)
    {type : String} (typed : IsIdentifier type) (ends : EndsWord rest) :
    alternative? (lead ++ (type.toList ++ rest)) = some type := by
  have start : (type.toList ++ rest).dropWhile (· == ' ') = type.toList ++ rest := by
    obtain ⟨c, others, chars, letter, -⟩ := typed
    rw [chars, List.cons_append]
    refine List.dropWhile_cons_of_neg ?_
    rw [beq_iff_eq]
    rintro rfl
    exact absurd letter (by decide)
  rw [alternative?, List.dropWhile_append_of_pos blank, start, word?_identifier typed ends,
    Option.map_some, String.ofList_toList]

/-- No type that is a name parts the alternatives. -/
theorem plain_piece {lead rest : List Char} (first : '|' ∉ lead) (last : '|' ∉ rest)
    {type : String} (typed : IsIdentifier type) :
    splitAtEach (· == '|') (lead ++ (type.toList ++ rest)) = [lead ++ (type.toList ++ rest)] := by
  refine Text.splitAtEach_of_forall_not fun c member => beq_false_of_ne ?_
  rintro rfl
  rcases List.mem_append.1 member with inside | member
  · exact first inside
  · rcases List.mem_append.1 member with inside | inside
    · exact absurd (isWordChar_of_isIdentifier typed _ inside) (by decide)
    · exact last inside

theorem alternativesIn_intercalate {types : List String} (some' : types ≠ [])
    (typed : ∀ type ∈ types, IsIdentifier type) {lead : List Char}
    (blank : ∀ c ∈ lead, (c == ' ') = true) :
    alternativesIn (lead ++ ((String.intercalate " | " types).toList ++ ";".toList)) = types := by
  have unbarred {lead : List Char} (blank : ∀ c ∈ lead, (c == ' ') = true) : '|' ∉ lead :=
    fun bar => absurd (blank _ bar) (by decide)
  induction types generalizing lead with
  | nil => exact absurd rfl some'
  | cons type rest ih =>
    obtain ⟨first, later⟩ := List.forall_mem_cons.1 typed
    cases rest with
    | nil =>
      rw [String.intercalate_singleton, alternativesIn,
        plain_piece (unbarred blank) (by decide) first, List.filterMap_cons,
        alternative?_append blank first (by decide)]
      rfl
    | cons next others =>
      have text : lead ++ ((String.intercalate " | " (type :: next :: others)).toList ++
          ";".toList) = (lead ++ (type.toList ++ [' '])) ++ '|' :: ([' '] ++
            ((String.intercalate " | " (next :: others)).toList ++ ";".toList)) := by
        rw [String.intercalate_cons_cons]
        simp
      rw [text, alternativesIn, Text.splitAtEach_append_separator _ (by rfl),
        plain_piece (unbarred blank) (by decide) first, List.filterMap_append,
        List.filterMap_cons, alternative?_append blank first (by decide)]
      have space : ∀ c ∈ [' '], (c == ' ') = true := List.forall_mem_singleton.2 rfl
      exact congrArg (type :: ·) (ih (List.cons_ne_nil _ _) later space)

end Alternatives

section Lines

/-- A key is read back whether it is quoted or not. -/
theorem innerTokens_keyText (wireName : String) {rest : List Char} (ends : EndsWord rest) :
    innerTokens ((keyText wireName).toList ++ rest) = memberTokens wireName rest := by
  rw [keyText]
  split
  · rename_i plain
    have word : word? (wireName.toList ++ rest) = some (wireName.toList, rest) := by
      unfold isIdentifier at plain
      split at plain
      · cases plain
      · rename_i c others chars
        simp only [Bool.and_eq_true, Bool.or_eq_true, List.all_eq_true] at plain
        refine word?_append (by simp [chars]) ?_ ends
        rw [chars]
        refine List.forall_mem_cons.2 ⟨?_, fun d later => ?_⟩
        · rcases plain.1 with (letter | underscore) | dollar
          · simp [isWordChar, Char.isAlphanum, letter]
          · simp [isWordChar, underscore]
          · simp [isWordChar, dollar]
        · simpa only [isWordChar, Bool.or_eq_true] using plain.2 d later
    rw [innerTokens, word]
    simp only [String.ofList_toList]
  · have quote : word? ((Text.jsonString wireName).toList ++ rest) = none := by
      rw [Text.jsonString, String.toList_ofList]
      rfl
    rw [innerTokens, quote, Text.quoted?_jsonString]
    rfl

theorem memberTokens_colon (name : String) (type : List Char) :
    memberTokens name (": ".toList ++ type) =
      .wireName name :: ((quoted? type).elim [] fun read => [.value read.1]) ++ [.member none] :=
  rfl

theorem lineTokens_member (wireName : String) (required : Bool) {type : String}
    (unquoted : Unquoted type.toList) :
    lineTokens .typescript ["  " ++ keyText wireName ++ (if required then "" else "?") ++ ": " ++
      type ++ ";"] =
        .wireName wireName :: (if required then [] else [.optional]) ++ [.member none] := by
  have cut (rest : List Char) :
      Binding.tokens .typescript ("  ".toList ++ rest) = innerTokens rest := rfl
  have plain : quoted? (type.toList ++ ";".toList) = none :=
    quoted?_eq_none (unquoted.append (by decide))
  rw [lineTokens_singleton]
  simp only [String.toList_append, List.append_assoc]
  cases required with
  | false =>
    rw [cut, innerTokens_keyText wireName (by rfl)]
    rfl
  | true =>
    rw [cut, innerTokens_keyText wireName (by rfl)]
    exact (memberTokens_colon wireName _).trans (by rw [plain]; rfl)

/-- The key of the tag is fixed to the tag value of its variant. -/
theorem lineTokens_tag (wireName value : String) :
    lineTokens .typescript ["  " ++ keyText wireName ++ ": " ++ Text.jsonString value ++ ";"] =
      [.wireName wireName, .value value, .member none] := by
  have cut (rest : List Char) :
      Binding.tokens .typescript ("  ".toList ++ rest) = innerTokens rest := rfl
  rw [lineTokens_singleton]
  simp only [String.toList_append, List.append_assoc]
  rw [cut, innerTokens_keyText wireName (by rfl), memberTokens_colon, Text.quoted?_jsonString]
  rfl

theorem lineTokens_constant {constant : String} (named : IsIdentifier constant) (value : String) :
    lineTokens .typescript ["  " ++ constant ++ " = " ++ Text.jsonString value ++ ","] =
      [.wireName value, .constant constant] := by
  have cut (rest : List Char) :
      Binding.tokens .typescript ("  ".toList ++ rest) = innerTokens rest := rfl
  have told (rest : List Char) : memberTokens constant (" = ".toList ++ rest) =
      (quoted? rest).elim [] fun read => [.wireName read.1, .constant constant] := rfl
  have word := word?_identifier named
    (rfl : EndsWord (" = ".toList ++ ((Text.jsonString value).toList ++ ",".toList)))
  rw [lineTokens_singleton]
  simp only [String.toList_append, List.append_assoc]
  rw [cut, innerTokens, word]
  simp only [String.ofList_toList]
  rw [told, Text.quoted?_jsonString, Option.elim_some]

theorem lineTokens_alternatives {name : String} (named : IsIdentifier name) (text : String) :
    lineTokens .typescript ["export type " ++ name ++ " = " ++ text ++ ";"] =
      [.entry (.name name), .entry (.alternatives (alternativesIn (text.toList ++ ";".toList)))] := by
  have cut (rest : List Char) : Binding.tokens .typescript ("export type ".toList ++ rest) =
      outerTokens ("export type ".toList ++ rest) := rfl
  have word := word?_identifier named
    (rfl : EndsWord (" = ".toList ++ (text.toList ++ ";".toList)))
  rw [lineTokens_singleton]
  simp only [String.toList_append, List.append_assoc]
  rw [cut, outerTokens, behind?_append, Option.bind_some, word]
  simp only [behind?_append, Option.elim_some, String.ofList_toList]

end Lines

theorem tells_fieldLines {f : Field Unit}
    (texts : ∀ text ∈ f.type.texts, ∀ c ∈ text.toList, isWordChar c = true) :
    Tells .typescript (fieldLines f.undescribed) [.slot f.slot] := by
  have cut := lineTokens_member f.wireName f.required (unquoted_typeText texts)
  refine tells_of_tokens cut fun rest => ?_
  cases required : f.required <;> simp [entriesFrom, Field.slot, required]

theorem tells_choiceLines {c : Choice} (named : IsIdentifier c.constant) :
    Tells .typescript (choiceLines c.undescribed) [.choice c.value c.constant] :=
  tells_of_tokens (lineTokens_constant named c.value) fun _ => rfl

theorem tells_interfaceLines {name : String} (named : IsIdentifier name) {tag : List String}
    {lead : List Slot} (tagged : Tells .typescript tag (lead.map .slot)) {fields : List (Field Unit)}
    (texts : ∀ f ∈ fields, ∀ text ∈ f.type.texts, ∀ c ∈ text.toList, isWordChar c = true) :
    Tells .typescript (interfaceLines name tag (fields.map Field.undescribed))
      (.name name :: (lead ++ fields.map Field.slot).map .slot) := by
  have head : Tells .typescript ["export interface " ++ name ++ " \x7b"] [.name name] :=
    tells_declared (fun _ => rfl) named (by decide)
  have close : Tells .typescript ["\x7d"] [] := tells_nothing rfl
  rw [interfaceLines, List.flatMap_map]
  exact (((head.append tagged).append
    (.map fun f member => tells_fieldLines (texts f member))).append
    close).congr (by simp)

/-- The slot that a variant has ahead of its own: the tag with its value. -/
def tagSlots (tag : Option String) : Body Unit → List Slot
  | .variant _ tagValue _ _ => tag.toList.map fun tag => ⟨tag, true, some tagValue⟩
  | _ => []

/-- A union tells its name and its alternatives; one without variants has no value. -/
def unionTold (name : String) (cases : List Case) : List Entry :=
  [.name name, .alternatives
    (if cases.isEmpty then ["never"] else cases.map (·.reference.text))]

theorem tells_bodyLines {name : String} (named : IsIdentifier name) (tag : Option String)
    {body : Body Unit} (names : ∀ name ∈ body.names, IsIdentifier name)
    (texts : ∀ text ∈ body.texts, ∀ c ∈ text.toList, isWordChar c = true)
    (references : ∀ reference ∈ body.references, IsIdentifier reference.text) :
    Tells .typescript (bodyLines name tag body.undescribed)
      (body.told name (tagSlots tag body) (fun _ => unionTold name) fun inner =>
        [.alternatives (alternativesIn ((typeText inner).toList ++ ";".toList))]) := by
  have types := (List.forall_mem_append.1 texts).1
  have ofFields {fields : List (Field Unit)} (own : body.types = fields.map Field.type) :
      ∀ f ∈ fields, ∀ text ∈ f.type.texts, ∀ c ∈ text.toList, isWordChar c = true :=
    fun f member text inside => types text (List.mem_flatMap.2
      ⟨f.type, own ▸ List.mem_map_of_mem member, inside⟩)
  cases body with
  | record fields additional =>
    have none : Tells .typescript [] (([] : List Slot).map .slot) := .nil
    exact (tells_interfaceLines named none (ofFields rfl)).congr (by simp [Body.told])
  | variant base tagValue fields additional =>
    refine tells_interfaceLines named ?_ (ofFields rfl)
    cases tag with
    | none => exact .nil
    | some tag =>
      have told : Tells .typescript ["  " ++ keyText tag ++ ": " ++ Text.jsonString tagValue ++ ";"]
          [.slot ⟨tag, true, some tagValue⟩] :=
        tells_of_tokens (lineTokens_tag tag tagValue) fun _ => rfl
      exact told
  | enumeration choices =>
    have head : Tells .typescript ["export enum " ++ name ++ " \x7b"] [.name name] :=
      tells_declared (fun _ => rfl) named (by decide)
    have inner : Tells .typescript (choices.flatMap fun c => choiceLines c.undescribed)
        (choices.map fun c => .choice c.value c.constant) :=
      .map fun c member => tells_choiceLines (names _ (List.mem_map_of_mem member))
    have close : Tells .typescript ["\x7d"] [] := tells_nothing rfl
    rw [Body.undescribed, Body.redescribe, bodyLines, List.flatMap_map]
    exact ((head.append inner).append close).congr (by simp [Body.told])
  | union wireName cases' =>
    have some' : (if cases'.isEmpty then ["never"] else cases'.map (·.reference.text)) ≠ [] := by
      split
      · exact List.cons_ne_nil _ _
      · rename_i inhabited
        simpa using inhabited
    have typed : ∀ type ∈ (if cases'.isEmpty then ["never"] else cases'.map (·.reference.text)),
        IsIdentifier type := by
      split
      · exact List.forall_mem_singleton.2 (by decide)
      · exact List.forall_mem_map.2 fun c member => references _ (List.mem_map_of_mem member)
    have read := alternativesIn_intercalate some' typed (List.forall_mem_nil _)
    have told := lineTokens_alternatives named (String.intercalate " | "
      (if cases'.isEmpty then ["never"] else cases'.map (·.reference.text)))
    rw [List.nil_append] at read
    rw [read] at told
    exact tells_of_tokens told fun _ => rfl
  | wrapper inner => exact tells_of_tokens (lineTokens_alternatives named _) fun _ => rfl

end TypeScriptModule

end SchemaBindings.Binding
