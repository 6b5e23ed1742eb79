import SchemaBindings.Binding.Comment
import SchemaBindings.Proofs.Json.Segments
import SchemaBindings.Proofs.Text.Characters
import SchemaBindings.Proofs.Text.Wrapping

/-! The lines of a text that is written line by line, and of a comment: what a description is wrapped
to are stretches of it, and no line feed is left in them. -/

namespace SchemaBindings.Text

section Splitting

variable {α : Type} {isSeparator : α → Bool}

theorem splitAtEach_ne_nil (text : List α) : splitAtEach isSeparator text ≠ [] := by
  cases text with
  | nil => simp [splitAtEach]
  | cons a rest =>
    simp only [splitAtEach]
    split
    · simp
    · cases splitAtEach isSeparator rest <;> simp [extend]

/-- What is left of a text when it is split are the items that separate nothing. -/
theorem flatten_splitAtEach (text : List α) :
    (splitAtEach isSeparator text).flatten = text.filter (!isSeparator ·) := by
  induction text with
  | nil => rfl
  | cons a text ih =>
    rw [splitAtEach]
    split
    · rename_i separates
      rw [List.flatten_cons, List.nil_append, ih, List.filter_cons_of_neg (by simp [separates])]
    · rename_i plain
      rw [flatten_extend, ih, List.filter_cons_of_pos (by simp [plain])]

/-- A separator parts a text in two that are split apart. -/
theorem splitAtEach_append_separator (text : List α) {separator : α}
    (separates : isSeparator separator = true) (rest : List α) :
    splitAtEach isSeparator (text ++ separator :: rest) =
      splitAtEach isSeparator text ++ splitAtEach isSeparator rest := by
  induction text with
  | nil => simp [splitAtEach, separates]
  | cons a text ih =>
    simp only [List.cons_append, splitAtEach, ih]
    split
    · rfl
    · cases parts : splitAtEach isSeparator text with
      | nil => exact absurd parts (splitAtEach_ne_nil text)
      | cons part others => rfl

/-- Between separators, parts without any are found again. -/
theorem splitAtEach_intercalate {separator : α} (separates : isSeparator separator = true)
    {parts : List (List α)} (some' : parts ≠ [])
    (whole : ∀ part ∈ parts, ∀ a ∈ part, isSeparator a = false) :
    splitAtEach isSeparator (List.intercalate [separator] parts) = parts := by
  induction parts with
  | nil => exact absurd rfl some'
  | cons part rest ih =>
    obtain ⟨first, later⟩ := List.forall_mem_cons.1 whole
    cases rest with
    | nil => rw [List.intercalate_singleton, splitAtEach_of_forall_not first]
    | cons next rest =>
      have behind := ih (List.cons_ne_nil next rest) later
      rw [List.intercalate_cons_cons, List.append_assoc, List.singleton_append,
        splitAtEach_append_cons first separates, behind]

/-- Where only one item separates, splitting loses nothing else. -/
theorem intercalate_splitAtEach [BEq α] [LawfulBEq α] (separator : α) (text : List α) :
    List.intercalate [separator] (splitAtEach (· == separator) text) = text := by
  induction text with
  | nil => rfl
  | cons a text ih =>
    have parted : splitAtEach (· == separator) text ≠ [] := splitAtEach_ne_nil text
    obtain ⟨part, parts, cut⟩ := List.exists_cons_of_ne_nil parted
    rw [cut] at ih
    rw [splitAtEach, cut]
    split
    · rename_i separates
      rw [List.intercalate_cons_cons, ih, eq_of_beq separates]
      rfl
    · cases parts with
      | nil => simpa [extend] using ih
      | cons next parts =>
        rw [List.intercalate_cons_cons] at ih
        rw [extend, List.intercalate_cons_cons, ← ih]
        rfl

/-- A text without separators stands at the end of the last part. -/
theorem getLast?_splitAtEach_append (text : List α) {last : List α}
    (whole : ∀ a ∈ last, isSeparator a = false) :
    ∃ front, (splitAtEach isSeparator (text ++ last)).getLast? = some (front ++ last) := by
  induction text with
  | nil => exact ⟨[], by rw [List.nil_append, splitAtEach_of_forall_not whole]; rfl⟩
  | cons a text ih =>
    obtain ⟨front, ends⟩ := ih
    rw [List.cons_append, splitAtEach]
    split
    · refine ⟨front, ?_⟩
      rw [List.getLast?_cons, ends]
      rfl
    · cases parts : splitAtEach isSeparator (text ++ last) with
      | nil => exact absurd parts (splitAtEach_ne_nil _)
      | cons part others =>
        rw [parts, List.getLast?_cons] at ends
        cases others with
        | nil => exact ⟨a :: front, congrArg (some ∘ List.cons a) (Option.some.inj ends)⟩
        | cons other others =>
          refine ⟨front, ?_⟩
          rw [extend, List.getLast?_cons]
          rw [List.getLast?_cons] at ends ⊢
          exact ends

theorem not_separator_of_mem_splitAtEach {text part : List α}
    (piece : part ∈ splitAtEach isSeparator text) : ∀ a ∈ part, isSeparator a = false := by
  induction text generalizing part with
  | nil =>
    obtain rfl := List.mem_singleton.1 piece
    exact List.forall_mem_nil _
  | cons a text ih =>
    simp only [splitAtEach] at piece
    split at piece
    · rcases List.mem_cons.1 piece with rfl | piece
      · exact List.forall_mem_nil _
      · exact ih piece
    · rename_i plain
      cases parts : splitAtEach isSeparator text with
      | nil => exact absurd parts (splitAtEach_ne_nil text)
      | cons first others =>
        rw [parts] at piece ih
        rcases List.mem_cons.1 piece with rfl | piece
        · exact List.forall_mem_cons.2 ⟨by simpa using plain, ih List.mem_cons_self⟩
        · exact ih (List.mem_cons_of_mem _ piece)

theorem isInfix_of_mem_splitAtEach {text part : List α}
    (piece : part ∈ splitAtEach isSeparator text) : part <:+: text := by
  -- The first part stands at the start, which the step to a longer text needs.
  suffices ∃ first others, splitAtEach isSeparator text = first :: others ∧ first <+: text ∧
      ∀ part ∈ others, part <:+: text by
    obtain ⟨first, others, same, start, inside⟩ := this
    rw [same] at piece
    rcases List.mem_cons.1 piece with rfl | later
    · exact start.isInfix
    · exact inside part later
  clear piece
  induction text with
  | nil => exact ⟨[], [], rfl, List.nil_prefix, List.forall_mem_nil _⟩
  | cons a text ih =>
    obtain ⟨first, others, same, start, inside⟩ := ih
    have later : ∀ part ∈ others, part <:+: a :: text :=
      fun part member => List.infix_cons (inside part member)
    rw [splitAtEach, same]
    split
    · exact ⟨[], first :: others, rfl, List.nil_prefix,
        List.forall_mem_cons.2 ⟨List.infix_cons start.isInfix, later⟩⟩
    · exact ⟨a :: first, others, rfl, List.prefix_cons_inj a |>.2 start, later⟩

/-- What no separator parts stays in one piece. -/
theorem exists_piece_of_isInfix {text part : List α} (whole : ∀ a ∈ part, isSeparator a = false)
    (inside : part <:+: text) : ∃ piece ∈ splitAtEach isSeparator text, part <:+: piece := by
  obtain ⟨before, after, rfl⟩ := inside
  -- What stands behind the part is added to it, up to the next separator.
  induction after generalizing part with
  | nil =>
    obtain ⟨front, ends⟩ := getLast?_splitAtEach_append before whole
    rw [List.append_nil]
    exact ⟨_, List.mem_of_getLast? ends, (List.suffix_append front part).isInfix⟩
  | cons a after ih =>
    cases separates : isSeparator a with
    | true =>
      obtain ⟨front, ends⟩ := getLast?_splitAtEach_append before whole
      rw [splitAtEach_append_separator _ separates]
      exact ⟨_, List.mem_append_left _ (List.mem_of_getLast? ends),
        (List.suffix_append front part).isInfix⟩
    | false =>
      obtain ⟨piece, listed, within⟩ := ih (List.forall_mem_append.2
        ⟨whole, List.forall_mem_singleton.2 separates⟩)
      have same : before ++ (part ++ [a]) ++ after = before ++ part ++ a :: after := by simp
      exact ⟨piece, same ▸ listed, (List.prefix_append part [a]).isInfix.trans within⟩

/-- A character that is no separator is part of a piece. -/
theorem exists_piece_of_mem (isSeparator : α → Bool) {text : List α} {a : α} (member : a ∈ text)
    (plain : isSeparator a = false) : ∃ piece ∈ splitAtEach isSeparator text, a ∈ piece := by
  obtain ⟨before, after, rfl⟩ := List.append_of_mem member
  have inside : [a] <:+: before ++ a :: after := ⟨before, after, by simp⟩
  obtain ⟨piece, listed, within⟩ := exists_piece_of_isInfix
    (List.forall_mem_singleton.2 plain) inside
  exact ⟨piece, listed, within.subset List.mem_cons_self⟩

end Splitting

/-- The text stays on one line. -/
def OneLine (text : List Char) : Prop := '\n' ∉ text

instance (text : List Char) : Decidable (OneLine text) := inferInstanceAs (Decidable (¬ _))

/-- The lines of a file that the given ones are printed on; one with a line feed takes several. -/
def physical (lines : List String) : List (List Char) :=
  lines.flatMap (fun line => splitAtEach (· == '\n') line.toList)

theorem splitAtEach_of_oneLine {text : List Char} (single : OneLine text) :
    splitAtEach (· == '\n') text = [text] := by
  refine splitAtEach_of_forall_not fun c member => beq_false_of_ne ?_
  rintro rfl
  exact single member

theorem physical_append (xs ys : List String) :
    physical (xs ++ ys) = physical xs ++ physical ys :=
  List.flatMap_append

theorem physical_flatMap {α : Type} (entries : List α) (f : α → List String) :
    physical (entries.flatMap f) = entries.flatMap fun entry => physical (f entry) :=
  List.flatMap_assoc

theorem unlines_append (xs ys : List String) : unlines (xs ++ ys) = unlines xs ++ unlines ys := by
  simp [unlines]

theorem flatMap_toList_ofList (texts : List (List Char)) :
    (texts.map String.ofList).flatMap String.toList = texts.flatten := by
  rw [List.flatMap_map, List.flatMap_def]
  simp

theorem splitAtEach_unlines (lines : List String) :
    splitAtEach (· == '\n') (unlines lines).toList = physical lines ++ [[]] := by
  induction lines with
  | nil => rfl
  | cons line rest ih =>
    have text : (unlines (line :: rest)).toList = line.toList ++ '\n' :: (unlines rest).toList := by
      simp [unlines, String.toList_join]
    rw [text, splitAtEach_append_separator _ (by rfl), ih, ← List.append_assoc]
    rfl

section Describing

theorem OneLine.of_subset {text part : List Char} (single : OneLine text)
    (inside : ∀ c ∈ part, c ∈ text) : OneLine part :=
  fun feed => single (inside _ feed)

theorem oneLine_append {xs ys : List Char} : OneLine (xs ++ ys) ↔ OneLine xs ∧ OneLine ys := by
  simp [OneLine, not_or]

theorem toList_intercalate_ofList (delimiter : String) (parts : List (List Char)) :
    (String.intercalate delimiter (parts.map String.ofList)).toList =
      List.intercalate delimiter.toList parts := by
  rw [String.toList_intercalate, List.map_map]
  congr 1
  simp [Function.comp_def]

theorem mem_intercalate {c : Char} {delimiter : String} {words : List String}
    (member : c ∈ (String.intercalate delimiter words).toList) :
    c ∈ delimiter.toList ∨ ∃ word ∈ words, c ∈ word.toList := by
  induction words with
  | nil => simp at member
  | cons first rest ih =>
    cases rest with
    | nil => exact .inr ⟨first, List.mem_cons_self, by simpa using member⟩
    | cons next rest =>
      rw [String.intercalate_cons_cons, String.toList_append, String.toList_append] at member
      simp only [List.mem_append] at member
      rcases member with (here | between) | later
      · exact .inr ⟨first, List.mem_cons_self, here⟩
      · exact .inl between
      · exact (ih later).imp_right fun ⟨word, inside, held⟩ =>
          ⟨word, List.mem_cons_of_mem _ inside, held⟩

theorem oneLine_intercalate {separator : String} (single : OneLine separator.toList)
    {texts : List String} (each : ∀ text ∈ texts, OneLine text.toList) :
    OneLine (String.intercalate separator texts).toList := by
  intro feed
  rcases mem_intercalate feed with between | ⟨text, listed, inside⟩
  · exact single between
  · exact each text listed inside

theorem exists_of_mem_endLines {parts : List (List Char)} {line : List Char}
    (member : line ∈ endLines parts) : ∃ part ∈ parts, line <+: part := by
  fun_induction endLines parts with
  | case1 => cases member
  | case2 last empty => cases member
  | case3 last ink =>
    obtain rfl := List.mem_singleton.1 member
    exact ⟨_, List.mem_cons_self, List.prefix_refl _⟩
  | case4 part rest _ ih =>
    rcases List.mem_cons.1 member with rfl | member
    · refine ⟨part, List.mem_cons_self, ?_⟩
      split
      · exact List.dropLast_prefix part
      · exact List.prefix_refl part
    · obtain ⟨other, listed, start⟩ := ih member
      exact ⟨other, List.mem_cons_of_mem _ listed, start⟩

theorem oneLine_of_mem_lines {text line : List Char} (member : line ∈ lines text) :
    OneLine line := by
  obtain ⟨part, piece, start⟩ := exists_of_mem_endLines member
  intro feed
  have plain := not_separator_of_mem_splitAtEach piece _ (start.subset feed)
  exact absurd plain (by decide)

theorem isInfix_of_mem_lines {text line : List Char} (member : line ∈ lines text) :
    line <:+: text := by
  obtain ⟨part, piece, start⟩ := exists_of_mem_endLines member
  exact start.isInfix.trans (isInfix_of_mem_splitAtEach piece)

theorem trimEnd_isPrefix (text : List Char) : Unicode.trimEnd text <+: text := by
  rw [← List.reverse_suffix, Unicode.trimEnd, List.reverse_reverse]
  exact List.dropWhile_suffix _

theorem mem_of_mem_trimEnd {c : Char} {text : List Char} (member : c ∈ Unicode.trimEnd text) :
    c ∈ text :=
  (trimEnd_isPrefix text).subset member

theorem trim_isInfix (text : String) : (Unicode.trim text).toList <:+: text.toList := by
  rw [Unicode.trim, String.toList_ofList]
  exact (trimEnd_isPrefix _).isInfix.trans (List.dropWhile_suffix _).isInfix

theorem isInfix_of_mem_paragraphLines {limit : Nat} {paragraph line : List Char}
    (member : line ∈ Binding.paragraphLines limit paragraph) : line <:+: paragraph := by
  unfold Binding.paragraphLines at member
  split at member
  · obtain rfl := List.mem_singleton.1 member
    exact List.nil_infix
  · exact (isInfix_of_mem_wrap member).trans (trimEnd_isPrefix paragraph).isInfix

/-- A line of a comment stands in the description as it is. -/
theorem isInfix_of_mem_descriptionLines {description : String} {lead : Nat} {line : String}
    (member : line ∈ Binding.descriptionLines description lead) :
    line.toList <:+: description.toList := by
  obtain ⟨chars, listed, rfl⟩ := List.mem_map.1 member
  obtain ⟨paragraph, isLine, inside⟩ := List.mem_flatMap.1 listed
  rw [String.toList_ofList]
  exact ((isInfix_of_mem_paragraphLines inside).trans (isInfix_of_mem_lines isLine)).trans
    (trim_isInfix description)

theorem oneLine_descriptionLines {description : String} {lead : Nat} {line : String}
    (member : line ∈ Binding.descriptionLines description lead) : OneLine line.toList := by
  obtain ⟨chars, listed, rfl⟩ := List.mem_map.1 member
  obtain ⟨paragraph, isLine, inside⟩ := List.mem_flatMap.1 listed
  rw [String.toList_ofList]
  exact (oneLine_of_mem_lines isLine).of_subset (isInfix_of_mem_paragraphLines inside).subset

end Describing

section Literals

theorem oneLine_of_visible {text : List Char} (visible : Visible text) : OneLine text :=
  visible.not_mem (by decide)

/-- A JSON string stays on its line, whatever it holds. -/
theorem oneLine_jsonString (text : String) : OneLine (jsonString text).toList :=
  oneLine_of_visible (visible_jsonString text)

/-- The inside of an ASCII literal stays on its line, whatever it holds. -/
theorem oneLine_asciiEscaped (text : String) : OneLine (asciiEscaped text).toList :=
  oneLine_of_visible (visible_asciiEscaped text)

end Literals

end SchemaBindings.Text
