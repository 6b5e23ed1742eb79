import SchemaBindings.Proofs.Binding.Failures
import SchemaBindings.Proofs.Binding.GoReading
import SchemaBindings.Proofs.Unicode.Letter

/-! The struct tag of a field as `encoding/json` reads it. No field is skipped, and its options are those
that are written. Its name in JSON is kept if the name has no other alphanumeric characters than
letters and decimal digits; a mark or another number is written all the same, and loses the name. -/

namespace SchemaBindings.Binding.GoPackage

open Text (splitAtEach takeWhile_append_stop)

section Reader

/-- The characters beside letters and decimal digits that a name in a struct tag is read with. -/
def readPunctuation : List Char := "!#$%&()*+-./:;<=>?@[]^_\x7b|\x7d~ ".toList

def isReadChar (c : Char) : Bool :=
  readPunctuation.contains c || Unicode.isLetter c || Unicode.isDecimalDigit c

/-- Whether a name in a struct tag is used as it stands. -/
def isReadName (name : List Char) : Bool := !name.isEmpty && name.all isReadChar

/-- What a struct tag says of the key of a field. Without a name the key is that of the field. -/
structure Key where
  name : Option String
  omitEmpty : Bool
  deriving DecidableEq, Repr

/-- The key that the quoted text of a tag gives a field; `none` if it is skipped. -/
def keyIn? (quoted : List Char) : Option Key :=
  if quoted = ['-'] then none
  else match splitAtEach (· == ',') quoted with
    | [] => none
    | name :: options =>
      some ⟨if isReadName name then some (.ofList name) else none,
        options.contains "omitempty".toList⟩

/-- The quoted text in the last pair of backquotes, which ends the line of a field. -/
def quotedIn? (line : List Char) : Option (List Char) :=
  match line.reverse with
  | '\x60' :: rest =>
    (behind? "json:\"" (rest.takeWhile (· != '\x60')).reverse).bind fun text =>
      let quoted := text.takeWhile (· != '"')
      if text = quoted ++ ['"'] then some quoted else none
  | _ => none

/-- The key of the field on a line; `none` if it has no tag for JSON or is skipped. -/
def keyOf? (line : List Char) : Option Key := (quotedIn? line).bind keyIn?

end Reader

section Written

theorem quotedIn?_append (front : List Char) {quoted : List Char} (unticked : '\x60' ∉ quoted)
    (unquoted : '"' ∉ quoted) :
    quotedIn? (front ++ " \x60".toList ++ ("json:\"".toList ++ (quoted ++ ['"'])) ++ ['\x60']) =
      some quoted := by
  have free : '\x60' ∉ ("json:\"".toList ++ (quoted ++ ['"'])).reverse := by
    simp [unticked]
  have raw := takeWhile_append_stop free (' ' :: front.reverse)
  have reversed : (front ++ " \x60".toList ++ ("json:\"".toList ++ (quoted ++ ['"'])) ++
      ['\x60']).reverse = '\x60' :: (("json:\"".toList ++ (quoted ++ ['"'])).reverse ++
        '\x60' :: ' ' :: front.reverse) := by
    simp
  rw [quotedIn?, reversed]
  simp only [raw, List.reverse_reverse, behind?_append, Option.bind_some,
    takeWhile_append_stop unquoted [], if_pos]

/-- A tag that gives a name back is not that of a skipped field. -/
theorem keyIn?_of_readTag? {quoted : List Char} {name : String} {options : List (List Char)}
    (read : readTag? quoted = some (name, options)) :
    keyIn? quoted = some ⟨if isReadName name.toList then some name else none,
      options.contains "omitempty".toList⟩ := by
  rw [readTag?] at read
  split at read
  · cases read
  · rename_i first others cut
    split at read
    · cases read
    · rename_i shown
      obtain ⟨rfl, rfl⟩ := Prod.mk.inj (Option.some.inj read)
      have kept : quoted ≠ ['-'] := by
        rintro rfl
        have parts : splitAtEach (· == ',') ['-'] = [['-']] := rfl
        rw [parts] at cut
        obtain ⟨same, none⟩ := List.cons.inj cut
        exact shown (.inr ⟨same.symm, none.symm⟩)
      rw [keyIn?, if_neg kept, cut]
      simp only [String.toList_ofList]

/-- A character that no name in a tag has is not in the tag either, the comma apart. -/
theorem not_mem_tag {c : Char}
    (other : (Unicode.isAlphanumeric c || tagPunctuation.contains c) = false) (comma : c ≠ ',')
    {name tag : String} {here : Pointer} (made : tagName name here = .ok tag) (required : Bool) :
    c ∉ tag.toList ++ (if required then "" else ",omitempty").toList := by
  have inName : ∀ d, (Unicode.isAlphanumeric d || tagPunctuation.contains d) = true → d ≠ c := by
    rintro d listed rfl
    cases listed.symm.trans other
  have inTag : c ∉ tag.toList := by
    unfold tagName at made
    split at made
    · cases made
    · rename_i valid
      split at made
      · cases made
        have hyphen := inName '-' (by decide +kernel)
        simp [comma, hyphen.symm]
      · cases made
        intro member
        simp only [isTagName, Bool.and_eq_true, List.all_eq_true, Bool.not_eq_true,
          Bool.not_eq_false'] at valid
        exact inName c (valid.2 c member) rfl
  have inOption : c ∉ (if required then "" else ",omitempty").toList := by
    have letters : "omitempty".toList.all Unicode.isAlphanumeric = true := by decide +kernel
    cases required with
    | true => exact List.not_mem_nil
    | false =>
      intro member
      rcases List.mem_cons.1 member with separates | later
      · exact comma separates
      · have letter := List.all_eq_true.1 letters c later
        exact inName c (by rw [letter, Bool.true_or]) rfl
  exact fun member => (List.mem_append.1 member).elim inTag inOption

/-- A name that is read as it stands is accepted. -/
theorem isTagName_of_isReadName {name : String} (read : isReadName name.toList = true) :
    isTagName name = true := by
  have same : readPunctuation = tagPunctuation := rfl
  simp only [isReadName, Bool.and_eq_true, Bool.not_eq_true', List.all_eq_true] at read
  obtain ⟨some', each⟩ := read
  simp only [isTagName, Bool.and_eq_true, Bool.not_eq_true', List.all_eq_true]
  refine ⟨?_, fun c member => ?_⟩
  · cases empty : name.isEmpty with
    | false => rfl
    | true =>
      rw [String.isEmpty_iff.1 empty] at some'
      cases some'
  · have char := each c member
    simp only [isReadChar, same, Bool.or_eq_true] at char ⊢
    rcases char with (listed | letter) | digit
    · exact .inr listed
    · exact .inl (Unicode.isAlphanumeric_of_isLetter letter)
    · exact .inl (Unicode.isAlphanumeric_of_isDecimalDigit digit)

end Written

/-- The key that the struct tag of a field is read with: the field is never skipped, it leaves out what
is empty exactly when it is optional, and it keeps its name in JSON if all of the name can be read in a
tag, and otherwise has none. No name that could be read is refused. -/
theorem keyOf?_fieldLines {f : Field String} {here : Pointer}
    (made : tagName f.wireName here = .ok f.extra) (pointed : Nat → Bool) :
    (∃ line, (fieldLines pointed f).getLast? = some line ∧
      keyOf? line.toList =
        some ⟨if isReadName f.wireName.toList then some f.wireName else none, !f.required⟩) ∧
    ∀ name : String, isReadName name.toList = true → ∃ tag, tagName name here = .ok tag := by
  refine ⟨⟨_, by rw [fieldLines, List.getLast?_append, List.getLast?_singleton]; rfl, ?_⟩, ?_⟩
  · obtain ⟨options, read, omitted⟩ := readTag?_tagName made f.required
    have unticked := not_mem_tag (c := '\x60') (by decide +kernel) (by decide) made f.required
    have unquoted := not_mem_tag (c := '"') (by decide +kernel) (by decide) made f.required
    have quoted := quotedIn?_append ("\t" ++ f.name ++ " " ++ fieldType pointed f).toList unticked
      unquoted
    have whole : ("\t" ++ f.name ++ " " ++ fieldType pointed f ++ " \x60json:\"" ++ f.extra ++
        (if f.required then "" else ",omitempty") ++ "\"\x60").toList =
          ("\t" ++ f.name ++ " " ++ fieldType pointed f).toList ++ " \x60".toList ++
            ("json:\"".toList ++ (f.extra.toList ++
              (if f.required then "" else ",omitempty").toList ++ ['"'])) ++ ['\x60'] := by
      simp [String.toList_append]
    rw [keyOf?, whole, quoted, Option.bind_some, keyIn?_of_readTag? read, omitted]
  · intro name read
    cases made : tagName name here with
    | ok tag => exact ⟨tag, rfl⟩
    | error fault =>
      have refused := (tagName_eq_error.1 made).1
      cases refused.symm.trans (isTagName_of_isReadName read)

/-- A field whose name alone would hide it. -/
def hyphenField : Field String := ⟨"-", "Empty", false, none, .primitive .string false, "-,"⟩

theorem keyOf?_hyphenField :
    tagName "-" .root = .ok "-," ∧
      (∃ line, (fieldLines (fun _ => false) hyphenField).getLast? = some line ∧
        keyOf? line.toList = some ⟨some "-", true⟩) ∧
      isReadName "größe ²".toList = false ∧ isReadName "größe 2".toList = true ∧
      ∃ tag, tagName "größe 2" .root = .ok tag := by
  have made : tagName "-" .root = .ok "-," := by decide +kernel
  have large : isReadName "größe 2".toList = true := by decide +kernel
  obtain ⟨⟨line, last, key⟩, accepted⟩ :=
    keyOf?_fieldLines (f := hyphenField) made fun _ => false
  have hyphen : isReadName "-".toList = true := by decide +kernel
  have name : (if isReadName hyphenField.wireName.toList then some hyphenField.wireName else none) =
      some "-" := if_pos hyphen
  rw [name] at key
  exact ⟨made, ⟨line, last, key⟩, by decide +kernel, large, accepted "größe 2" large⟩

/-- A superscript digit is accepted, and the field loses its name in JSON by it. -/
def squareField : Field String := ⟨"x²", "X", true, none, .primitive .float64 false, "x²"⟩

theorem square_loses_name :
    tagName squareField.wireName .root = .ok squareField.extra ∧
      ((fieldLines (fun _ => false) squareField).getLast?.bind (keyOf? ·.toList)) =
        some ⟨none, false⟩ := by
  decide +kernel

end SchemaBindings.Binding.GoPackage
