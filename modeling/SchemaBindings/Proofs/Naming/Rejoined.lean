import SchemaBindings.Proofs.Naming.TypePrefix

/-! The words of a name, joined by underscores in small letters or in capitals, are the words of
what they are joined to. No word is cut in two: where all letters have one case, none changes. -/

namespace SchemaBindings.Naming

/-- Some small letters and digits, all of them in ASCII. -/
structure IsSmallWord (word : String) : Prop where
  nonempty : word ≠ ""
  chars : ∀ c ∈ word.toList, c.isLower = true ∨ c.isDigit = true

section Lowering

theorem isUpper_iff {c : Char} : c.isUpper = true ↔ 65 ≤ c.toNat ∧ c.toNat ≤ 90 := by
  delta Char.isUpper
  rw [decide_eq_true_eq, ge_iff_le, UInt32.le_iff_toNat_le, UInt32.le_iff_toNat_le]
  rfl

theorem isAlphanum_eq (c : Char) : c.isAlphanum = (c.isUpper || c.isLower || c.isDigit) := rfl

/-- No lower case of a character is a capital of ASCII. -/
theorem isUpper_of_mem_toLower {c d : Char} (member : d ∈ Unicode.toLower c) :
    d.isUpper = false := by
  -- Every shift leads behind the capitals, and the first one leads away from them.
  have behind : ∀ s ∈ Unicode.lowerShifts, 91 ≤ s.run.first + s.distance := by decide +kernel
  have capitals : ⟨⟨0x41, 0x5A, 1⟩, 32⟩ ∈ Unicode.lowerShifts := List.mem_cons_self
  rw [Bool.eq_false_iff]
  intro upper
  rw [Unicode.toLower] at member
  split at member
  · rcases List.mem_pair.1 member with rfl | rfl
    · exact absurd upper (by decide)
    · exact absurd upper (by decide)
  · obtain rfl := List.mem_singleton.1 member
    rw [isUpper_iff, Unicode.shifted] at upper
    split at upper
    · rename_i s found
      have away := behind s (List.mem_of_find?_eq_some found)
      have inside := List.find?_some found
      simp only [Unicode.Run.contains, Bool.and_eq_true, decide_eq_true_eq] at inside
      have valid (code : Nat) : (Char.ofNat code).toNat = code ∨ (Char.ofNat code).toNat = 0 := by
        by_cases scalar : code.isValidChar
        · have same : Char.ofNat code = Char.ofNatAux code scalar := dif_pos scalar
          exact .inl (congrArg Char.toNat same)
        · exact .inr (congrArg Char.toNat (dif_neg scalar))
      rcases valid (c.toNat + s.distance).toNat with same | zero <;> omega
    · rename_i unshifted
      have outside := List.find?_eq_none.1 unshifted _ capitals
      simp only [Unicode.Run.contains, Nat.mod_one, beq_self_eq_true, Bool.and_true,
        Bool.and_eq_true, decide_eq_true_eq] at outside
      exact outside upper

theorem isUpper_of_mem_lowerWord {word : List Char} :
    ∀ d ∈ lowerWord word, d.isUpper = false := by
  fun_induction lowerWord word with
  | case1 => exact List.forall_mem_nil _
  | case2 => exact List.forall_mem_singleton.2 (by decide)
  | case3 c rest _ ih =>
    exact List.forall_mem_append.2 ⟨fun d member => isUpper_of_mem_toLower member, ih⟩

theorem isSmallWord_of_mem_splitWords {name word : String} (member : word ∈ splitWords name) :
    IsSmallWord word := by
  obtain ⟨c, cs, text, -⟩ := isAlphanum_of_mem_splitWords member
  have plain := plain_of_mem_splitWords member
  refine ⟨?_, fun d inside => ?_⟩
  · rintro rfl
    cases text
  · obtain ⟨chars, kept, rfl⟩ := List.mem_map.1 member
    obtain ⟨raw, -, rfl⟩ := List.mem_map.1 (List.mem_filter.1 kept).1
    have alphanum := plain d inside
    rw [String.toList_ofList] at inside
    have small := isUpper_of_mem_lowerWord d (List.mem_filter.1 inside).1
    simpa [isAlphanum_eq, small] using alphanum

theorem filter_lowerWord (word : List Char) :
    (lowerWord word).filter Char.isAlphanum =
      (word.flatMap Unicode.toLower).filter Char.isAlphanum := by
  fun_induction lowerWord word with
  | case1 => rfl
  | case2 =>
    -- Neither lower case of a sigma is in ASCII.
    decide +kernel
  | case3 c rest _ ih => rw [List.filter_append, ih, List.flatMap_cons, List.filter_append]

theorem flatten_rawWords (text : List Char) :
    (rawWords text).flatten = text.filter Unicode.isAlphanumeric := by
  have pieceByPiece (cut : List (List Char)) :
      (cut.flatMap (humps none)).flatten = cut.flatten := by
    induction cut with
    | nil => rfl
    | cons piece rest ih =>
      rw [List.flatMap_cons, List.flatten_append, List.flatten_cons, flatten_humps, ih]
  rw [rawWords, pieceByPiece, pieces, Text.flatten_splitAtEach]
  simp only [Bool.not_not]

/-- The words of a name have its letters and digits, in lower case, as far as these are in ASCII. -/
theorem flatMap_splitWords (name : String) :
    (splitWords name).flatMap String.toList =
      ((name.toList.filter Unicode.isAlphanumeric).flatMap Unicode.toLower).filter
        Char.isAlphanum := by
  have wordByWord (raw : List (List Char)) :
      (raw.map fun word => (lowerWord word).filter Char.isAlphanum).flatten =
        (raw.flatten.flatMap Unicode.toLower).filter Char.isAlphanum := by
    induction raw with
    | nil => rfl
    | cons word rest ih =>
      rw [List.map_cons, List.flatten_cons, ih, filter_lowerWord, List.flatten_cons,
        List.flatMap_append, List.filter_append]
  rw [splitWords, Text.flatMap_toList_ofList, List.flatten_filter_not_isEmpty, wordByWord,
    flatten_rawWords]

end Lowering

section Joining

theorem caseAfter_ne_lower {before : Option LetterCase} {c : Char}
    (capital : Unicode.isLowercase c = false) (start : before ≠ some .lower) :
    caseAfter before c ≠ some .lower := by
  rw [caseAfter, if_neg (Bool.eq_false_iff.1 capital)]
  split
  · exact nofun
  · exact start

/-- Without small letters there is no change of case to cut at, unless one stands before. -/
theorem humps_of_capitals {before : Option LetterCase} {text : List Char} (nonempty : text ≠ [])
    (capitals : ∀ c ∈ text, Unicode.isLowercase c = false) (start : before ≠ some .lower) :
    humps before text = [text] := by
  fun_induction humps before text with
  | case1 => exact (nonempty rfl).elim
  | case2 => rfl
  | case3 before c next rest change ih =>
    exact absurd change.1 (caseAfter_ne_lower (capitals c List.mem_cons_self) start)
  | case4 before c next rest _ change ih =>
    rw [capitals next (by simp)] at change
    exact absurd change.2.2 Bool.false_ne_true
  | case5 before c next rest _ _ ih =>
    obtain ⟨first, later⟩ := List.forall_mem_cons.1 capitals
    rw [ih (by simp) later (caseAfter_ne_lower first start)]
    rfl

/-- Words between underscores are the pieces of the text. -/
theorem pieces_intercalate {words : List String} (some' : words ≠ [])
    (plain : ∀ word ∈ words, Plain word) :
    pieces (String.intercalate "_" words).toList = words.map String.toList := by
  rw [String.toList_intercalate]
  apply Text.splitAtEach_intercalate (by decide +kernel) (mt List.map_eq_nil_iff.1 some')
  intro chars listed c member
  obtain ⟨word, inside, rfl⟩ := List.mem_map.1 listed
  rw [isAlphanumeric_of_isAlphanum (plain word inside c member), Bool.not_true]

/-- Words that have no change of case inside come back in small letters. -/
theorem splitWords_intercalate {words : List String} (plain : ∀ word ∈ words, Plain word)
    (nonempty : ∀ word ∈ words, word ≠ "")
    (whole : ∀ word ∈ words, humps none word.toList = [word.toList]) :
    splitWords (String.intercalate "_" words) = words.map asciiLower := by
  have cut : rawWords (String.intercalate "_" words).toList = words.map String.toList := by
    cases words with
    | nil => rfl
    | cons word rest =>
      rw [rawWords, pieces_intercalate (List.cons_ne_nil word rest) plain, List.flatMap_map,
        List.flatMap_congr whole, List.map_eq_flatMap]
  rw [splitWords_of_rawWords cut (List.forall_mem_map.2 plain)
    (List.forall_mem_map.2 fun word listed empty => nonempty word listed
      (String.toList_eq_nil_iff.1 empty)), List.map_map]
  refine List.map_congr_left fun word _ => String.toList_inj.1 ?_
  simp [asciiLower]

/-- A style that writes all words alike. -/
theorem apply_of_uniform {style : CaseStyle} (uniform : style.first = style.rest)
    (initialisms words : List String) :
    style.apply initialisms words =
      String.intercalate style.delimiter (words.map (capitalize style.rest initialisms)) := by
  rw [CaseStyle.apply]
  cases words with
  | nil => rfl
  | cons word rest => rw [CaseStyle.cased, uniform, List.map_cons]

end Joining

section Small

variable {word : String} (small : IsSmallWord word)

include small

theorem IsSmallWord.plain : Plain word := by
  intro c member
  rcases small.chars c member with letter | digit
  · simp [isAlphanum_eq, letter]
  · simp [isAlphanum_eq, digit]

theorem IsSmallWord.toLower_eq : ∀ c ∈ word.toList, c.toLower = c := by
  intro c member
  refine (toLower_eq_self_iff (small.plain c member)).2 ?_
  exact of_isAlphanum (P := fun c => c.isLower = true ∨ c.isDigit = true → c.isUpper = false)
    (by decide) (small.plain c member) (small.chars c member)

theorem IsSmallWord.asciiLower_eq : asciiLower word = word := by
  rw [← String.toList_inj, asciiLower, String.toList_map, map_eq_self_iff]
  exact small.toLower_eq

theorem IsSmallWord.asciiLower_asciiUpper : asciiLower (asciiUpper word) = word := by
  rw [← String.toList_inj, asciiLower, asciiUpper, String.toList_map, String.toList_map,
    List.map_map, map_eq_self_iff]
  intro c member
  exact (change_of_change (small.plain c member)).2.2.trans (small.toLower_eq c member)

theorem IsSmallWord.toList_ne_nil : word.toList ≠ [] :=
  fun none => small.nonempty (String.toList_eq_nil_iff.1 none)

theorem IsSmallWord.humps_eq : humps none word.toList = [word.toList] := by
  refine humps_of_uncapitalized none small.toList_ne_nil fun c member => ?_
  rw [← small.toLower_eq c member]
  exact isUppercase_toLower (small.plain c member)

theorem IsSmallWord.humps_asciiUpper :
    humps none (asciiUpper word).toList = [(asciiUpper word).toList] := by
  rw [asciiUpper, String.toList_map]
  refine humps_of_capitals (mt List.map_eq_nil_iff.1 small.toList_ne_nil) ?_ (by decide)
  exact List.forall_mem_map.2 fun c member => isLowercase_toUpper (small.plain c member)

end Small

/-- Words in small letters come back from a style that writes each of them in one case and an
underscore between them. -/
theorem splitWords_apply {style : CaseStyle} (uniform : style.first = style.rest)
    (untitled : style.rest ≠ .title) (underscore : style.delimiter = "_")
    (initialisms : List String) {words : List String} (small : ∀ word ∈ words, IsSmallWord word) :
    splitWords (style.apply initialisms words) = words := by
  have each (word : String) (listed : word ∈ words) :
      asciiLower (capitalize style.rest initialisms word) = word ∧
        humps none (capitalize style.rest initialisms word).toList =
          [(capitalize style.rest initialisms word).toList] := by
    have own := small word listed
    cases case : style.rest with
    | lower =>
      rw [capitalize, own.asciiLower_eq]
      exact ⟨own.asciiLower_eq, own.humps_eq⟩
    | title => exact absurd case untitled
    | upper => exact ⟨own.asciiLower_asciiUpper, own.humps_asciiUpper⟩
  rw [apply_of_uniform uniform, underscore, splitWords_intercalate, List.map_map]
  · exact map_eq_self_iff.2 fun word listed => (each word listed).1
  · exact List.forall_mem_map.2 fun word listed => (small word listed).plain.capitalize _ _
  · refine List.forall_mem_map.2 fun word listed empty => ?_
    have none : asciiLower "" = "" := by simp [asciiLower]
    have same := (each word listed).1
    rw [empty, none] at same
    exact (small word listed).nonempty same.symm
  · exact List.forall_mem_map.2 fun word listed => (each word listed).2

/-- The words of any name are small letters and digits, all that the name has of these in lower
case. Joined by underscores, in small letters or in capitals, they are found again, whatever the
initialisms are. -/
theorem splitWords_rejoined (name : String) (initialisms : List String) :
    (∀ word ∈ splitWords name, IsSmallWord word) ∧
      (splitWords name).flatMap String.toList =
        ((name.toList.filter Unicode.isAlphanumeric).flatMap Unicode.toLower).filter
          Char.isAlphanum ∧
      splitWords (CaseStyle.snake.apply initialisms (splitWords name)) = splitWords name ∧
      splitWords (CaseStyle.screamingSnake.apply initialisms (splitWords name)) =
        splitWords name := by
  have small : ∀ word ∈ splitWords name, IsSmallWord word :=
    fun word => isSmallWord_of_mem_splitWords
  exact ⟨small, flatMap_splitWords name,
    splitWords_apply rfl (by decide) rfl initialisms small,
    splitWords_apply rfl (by decide) rfl initialisms small⟩

/-- The Kelvin sign has a small letter of ASCII, and a digit has no case. -/
example : splitWords "HTTP2Server\u212A_3É" = ["http2", "server", "k", "3"] := by
  decide +kernel

end SchemaBindings.Naming
