import Mathlib.Data.List.Forall2
import SchemaBindings.Proofs.Text.CarriageReturns

/-! Descriptions as lines that fit. What a line of a description is wrapped to is at most as wide as
the limit, and loses white space alone. A line that is blank stays one empty line. -/

namespace SchemaBindings.Text

open Binding (columnsAfter descriptionLines paragraphLines)
open Unicode (isBlank trim trimEnd trimStart)

/-- The columns of a text, one for each character below the Hangul Jamo and two for any other. -/
def columns : List Char → Nat
  | [] => 0
  | c :: rest => charWidth c + columns rest

/-- A text without its white space. -/
def inkOf (text : List Char) : List Char := text.filter (!isBlank ·)

section Columns

@[simp] theorem columns_append (front back : List Char) :
    columns (front ++ back) = columns front + columns back := by
  induction front with
  | nil => exact (Nat.zero_add _).symm
  | cons c front ih => rw [List.cons_append, columns, columns, ih, Nat.add_assoc]

@[simp] theorem columns_spaces (count : Nat) : columns (List.replicate count ' ') = count := by
  have one : charWidth ' ' = 1 := by decide
  induction count with
  | zero => rfl
  | succ count ih => rw [List.replicate_succ, columns, ih, one, Nat.add_comm]

theorem charWidth_le (c : Char) : charWidth c ≤ 2 := by
  unfold charWidth
  split <;> decide

/-- Only the escape character starts something that takes no columns. -/
theorem width_eq_columns {text : List Char} (plain : escapeChar ∉ text) :
    width text = columns text := by
  induction text with
  | nil => rfl
  | cons c rest ih =>
    obtain ⟨other, later⟩ := List.ne_and_not_mem_of_not_mem_cons plain
    have step : width (c :: rest) = charWidth c + width rest := by
      simp [width, widthFrom, Control.width, Control.next, Ne.symm other]
    rw [step, ih later, columns]

end Columns

section Cutting

variable {limit : Nat}

/-- With room for one character, each piece fits; the first one beside the columns in use. -/
theorem cutToWidth_fits (room : 2 ≤ limit) {text : List Char} (plain : escapeChar ∉ text)
    {used : Nat} (fits : used ≤ limit) :
    ∃ first others, cutToWidth limit used .outside text = first :: others ∧
      used + columns first ≤ limit ∧ ∀ piece ∈ others, columns piece ≤ limit := by
  induction text generalizing used with
  | nil => exact ⟨[], [], rfl, fits, List.forall_mem_nil _⟩
  | cons c rest ih =>
    obtain ⟨other, later⟩ := List.ne_and_not_mem_of_not_mem_cons plain
    have own : Control.width .outside c = charWidth c := if_neg (Ne.symm other)
    have stays : Control.next .outside c = .outside := if_neg (Ne.symm other)
    have single : charWidth c ≤ limit := (charWidth_le c).trans room
    simp only [cutToWidth, own, stays]
    split
    · obtain ⟨first, others, same, ahead, each⟩ := ih later single
      refine ⟨[], (c :: first) :: others, by rw [same, extend], fits, ?_⟩
      exact List.forall_mem_cons.2 ⟨by rwa [columns], each⟩
    · rename_i open'
      -- A first character always fits, and any other one was found to.
      have within : used + charWidth c ≤ limit := by
        rcases Nat.eq_zero_or_pos used with none | some'
        · rwa [none, Nat.zero_add]
        · exact Nat.le_of_not_lt fun passed => open' ⟨trivial, Ne.symm other, some', passed⟩
      obtain ⟨first, others, same, ahead, each⟩ := ih later within
      exact ⟨c :: first, others, by rw [same, extend],
        by rwa [columns, ← Nat.add_assoc], each⟩

theorem text_mem_of_mem_withBlanks {p : Part} {blanks : Nat} {pieces : List (List Char)}
    (member : p ∈ withBlanks blanks pieces) : p.text ∈ pieces := by
  fun_induction withBlanks blanks pieces with
  | case1 => cases member
  | case2 last => exact List.mem_singleton.1 member ▸ List.mem_singleton_self _
  | case3 piece rest _ ih =>
    rcases List.mem_cons.1 member with rfl | later
    · exact List.mem_cons_self
    · exact List.mem_cons_of_mem _ (ih later)

/-- A part that a line has room for, when nothing else stands on it. -/
structure Part.Fits (limit : Nat) (p : Part) : Prop where
  shown : width p.text = columns p.text
  within : columns p.text ≤ limit

theorem fits_partsOf (room : 2 ≤ limit) {word : Part} (plain : escapeChar ∉ word.text) :
    ∀ p ∈ partsOf limit word, p.Fits limit := by
  intro p member
  obtain ⟨piece, cut, inside⟩ := List.mem_flatMap.1 (text_mem_of_mem_withBlanks member)
  have plainPiece : escapeChar ∉ piece := fun escape =>
    plain (flatten_cutAtHyphens none word.text ▸ List.mem_flatten_of_mem cut escape)
  have plainPart : escapeChar ∉ p.text := fun escape =>
    plainPiece (flatten_cutToWidth limit 0 .outside piece ▸ List.mem_flatten_of_mem inside escape)
  obtain ⟨first, others, same, ahead, each⟩ :=
    cutToWidth_fits room plainPiece (Nat.zero_le limit)
  rw [same] at inside
  refine ⟨width_eq_columns plainPart, ?_⟩
  rcases List.mem_cons.1 inside with here | later
  · rwa [here, ← Nat.zero_add (columns first)]
  · exact each p.text later

theorem fits_parts (room : 2 ≤ limit) {paragraph : List Char} (plain : escapeChar ∉ paragraph) :
    ∀ p ∈ (wordsFrom false paragraph).flatMap (partsOf limit), p.Fits limit := by
  intro p member
  obtain ⟨word, listed, own⟩ := List.mem_flatMap.1 member
  refine fits_partsOf room (fun escape => plain ?_) p own
  rw [← sourceOf_wordsFrom false paragraph]
  exact List.mem_flatMap.2 ⟨word, listed, List.mem_append_left _ escape⟩

end Cutting

section Filling

variable {limit : Nat}

theorem columns_lineOf_cons (p : Part) {line : List Part} (some' : line ≠ []) :
    columns (lineOf (p :: line)) = columns p.text + p.blanks + columns (lineOf line) := by
  obtain ⟨next, rest, rfl⟩ := List.exists_cons_of_ne_nil some'
  simp [lineOf, Nat.add_assoc]

/-- The spaces of a part count when another one stands behind it. -/
theorem columns_lineOf_cons_le {used : Nat} {p : Part} {line : List Part}
    (alone : used + columns p.text ≤ limit)
    (ahead : line ≠ [] → used + columns p.text + p.blanks + columns (lineOf line) ≤ limit) :
    used + columns (lineOf (p :: line)) ≤ limit := by
  by_cases last : line = []
  · rwa [last, lineOf]
  · rw [columns_lineOf_cons p last]
    have sum := ahead last
    omega

/-- Parts that fit fill lines that fit. The first line goes on behind the columns in use, if it
holds any part; there are none in use before the first part. -/
theorem fill_fits {parts : List Part} (each : ∀ p ∈ parts, p.Fits limit) (used : Nat)
    (started : Bool) (fresh : started = false → used = 0) :
    ∃ first others, fill limit used started parts = first :: others ∧
      (first ≠ [] → used + columns (lineOf first) ≤ limit) ∧
      ∀ line ∈ others, columns (lineOf line) ≤ limit := by
  induction parts generalizing used started with
  | nil => exact ⟨[], [], rfl, fun some' => absurd rfl some', List.forall_mem_nil _⟩
  | cons p rest ih =>
    obtain ⟨own, later⟩ := List.forall_mem_cons.1 each
    simp only [fill, own.shown]
    split
    · obtain ⟨line, others, same, ahead, kept⟩ :=
        ih later (columns p.text + p.blanks) true fun no => Bool.noConfusion no
      -- The part opens a line, with nothing in use before it.
      have whole : 0 + columns (lineOf (p :: line)) ≤ limit :=
        columns_lineOf_cons_le (by simpa using own.within) (by simpa using ahead)
      rw [Nat.zero_add] at whole
      exact ⟨[], (p :: line) :: others, by rw [same, extend], fun some' => absurd rfl some',
        List.forall_mem_cons.2 ⟨whole, kept⟩⟩
    · rename_i stays
      have alone : used + columns p.text ≤ limit := by
        cases started with
        | false => simpa [fresh rfl] using own.within
        | true => simpa using stays
      obtain ⟨line, others, same, ahead, kept⟩ :=
        ih later (used + columns p.text + p.blanks) true fun no => Bool.noConfusion no
      exact ⟨p :: line, others, by rw [same, extend],
        fun _ => columns_lineOf_cons_le alone ahead, kept⟩

theorem wrap_fits (room : 2 ≤ limit) {paragraph : List Char} (plain : escapeChar ∉ paragraph) :
    ∀ line ∈ wrap limit paragraph, columns line ≤ limit := by
  intro line member
  obtain ⟨parts, filled, rfl⟩ := List.mem_map.1 member
  obtain ⟨first, others, same, ahead, each⟩ :=
    fill_fits (fits_parts room plain) 0 false fun _ => rfl
  rw [same] at filled
  rcases List.mem_cons.1 filled with rfl | later
  · by_cases none : parts = []
    · rw [none]
      exact Nat.zero_le _
    · simpa using ahead none
  · exact each parts later

end Filling

section Keeping

theorem inkOf_append (front back : List Char) : inkOf (front ++ back) = inkOf front ++ inkOf back :=
  List.filter_append ..

theorem inkOf_cons_blank {c : Char} (blank : isBlank c = true) (text : List Char) :
    inkOf (c :: text) = inkOf text :=
  List.filter_cons_of_neg (by simp [blank])

theorem inkOf_spaces (count : Nat) : inkOf (List.replicate count ' ') = [] := by
  have space : isBlank ' ' = true := by decide
  simp [inkOf, space]

theorem inkOf_eq_nil_iff {text : List Char} : inkOf text = [] ↔ ∀ c ∈ text, isBlank c = true := by
  simp [inkOf]

theorem inkOf_trimStart (text : List Char) : inkOf (trimStart text) = inkOf text := by
  rw [trimStart]
  induction text with
  | nil => rfl
  | cons c rest ih =>
    rw [List.dropWhile_cons]
    split
    · rename_i blank
      rw [ih, inkOf_cons_blank blank]
    · rfl

theorem inkOf_trimEnd (text : List Char) : inkOf (trimEnd text) = inkOf text := by
  have start := inkOf_trimStart text.reverse
  rw [trimEnd, inkOf, List.filter_reverse, ← inkOf, ← trimStart, start, inkOf,
    List.filter_reverse, List.reverse_reverse, inkOf]

theorem inkOf_lineOf (parts : List Part) : inkOf (lineOf parts) = inkOf (sourceOf parts) := by
  fun_induction lineOf parts with
  | case1 => rfl
  | case2 last => simp [sourceOf, Part.source, inkOf_append, inkOf_spaces]
  | case3 p rest _ ih =>
    have cut : sourceOf (p :: rest) = p.text ++ List.replicate p.blanks ' ' ++ sourceOf rest := rfl
    rw [cut, inkOf_append, inkOf_append _ (sourceOf rest), ih]

theorem inkOf_wrap (limit : Nat) (paragraph : List Char) :
    inkOf (wrap limit paragraph).flatten = inkOf paragraph := by
  have each (filled : List (List Part)) :
      inkOf (filled.flatMap lineOf) = inkOf (sourceOf filled.flatten) := by
    induction filled with
    | nil => rfl
    | cons line rest ih =>
      rw [List.flatMap_cons, List.flatten_cons, sourceOf_append, inkOf_append, inkOf_append, ih,
        inkOf_lineOf]
  rw [wrap, ← List.flatMap_def, each, flatten_fill, sourceOf_partsOf_words]

theorem wrap_ne_nil (limit : Nat) (paragraph : List Char) : wrap limit paragraph ≠ [] := by
  rw [wrap, Ne, List.map_eq_nil_iff]
  cases (wordsFrom false paragraph).flatMap (partsOf limit) with
  | nil => exact List.cons_ne_nil _ _
  | cons p rest =>
    rw [fill]
    split
    · exact List.cons_ne_nil _ _
    · exact extend_ne_nil _ _

/-- Ending a line drops a line feed, and the carriage return in front of it. -/
theorem inkOf_lines (text : List Char) : inkOf (lines text).flatten = inkOf text := by
  have ended (parts : List (List Char)) : inkOf (endLines parts).flatten = inkOf parts.flatten := by
    fun_induction endLines parts with
    | case1 => rfl
    | case2 last empty => rw [List.isEmpty_iff.1 empty]; rfl
    | case3 last _ => rfl
    | case4 line rest _ ih =>
      have same : inkOf (if line.getLast? = some '\r' then line.dropLast else line) =
          inkOf line := by
        split
        · rename_i last
          rw [← inkOf_trimEnd, trimEnd_dropLast last isBlank_return, inkOf_trimEnd]
        · rfl
      rw [List.flatten_cons, List.flatten_cons, inkOf_append, inkOf_append, ih, same]
  have split' : inkOf (splitAtEach (· == '\n') text).flatten = inkOf text := by
    have feed : isBlank '\n' = true := by decide
    rw [flatten_splitAtEach, inkOf, List.filter_filter]
    refine List.filter_congr fun c _ => ?_
    by_cases same : c = '\n'
    · simp [same, feed]
    · simp [same]
  rw [lines, ended, split']

end Keeping

section Describing

/-- What a line of a description is wrapped to: one line or more, with the ink of that line. A blank
line has none, and becomes one empty line. -/
inductive Wrapped (paragraph : List Char) : List String → Prop
  | blank (each : ∀ c ∈ paragraph, isBlank c = true) : Wrapped paragraph [""]
  | inked {block : List String} (shown : ∃ c ∈ paragraph, isBlank c = false) (some' : block ≠ [])
      (kept : inkOf (String.join block).toList = inkOf paragraph) : Wrapped paragraph block

theorem wrapped_paragraphLines (limit : Nat) (paragraph : List Char) :
    Wrapped paragraph ((paragraphLines limit paragraph).map String.ofList) := by
  unfold paragraphLines
  split
  · rename_i blank
    exact .blank (List.all_eq_true.1 blank)
  · rename_i shown
    refine .inked (by simpa using shown) (by simpa using wrap_ne_nil limit _) ?_
    rw [String.toList_join, flatMap_toList_ofList, inkOf_wrap, inkOf_trimEnd]

theorem Wrapped.inkOf_join {paragraph : List Char} {block : List String}
    (wrapped : Wrapped paragraph block) :
    inkOf (String.join block).toList = inkOf paragraph := by
  cases wrapped with
  | blank each => exact (inkOf_eq_nil_iff.2 each).symm
  | inked _ _ kept => exact kept

theorem paragraphLines_fit {limit : Nat} (room : 2 ≤ limit) {paragraph : List Char}
    (plain : escapeChar ∉ paragraph) : ∀ line ∈ paragraphLines limit paragraph,
      columns line ≤ limit := by
  unfold paragraphLines
  split
  · exact List.forall_mem_singleton.2 (Nat.zero_le limit)
  · exact wrap_fits room fun escape => plain (mem_of_mem_trimEnd escape)

theorem columns_descriptionLines {description : String} (plain : escapeChar ∉ description.toList)
    {lead : Nat} {line : String} (member : line ∈ descriptionLines description lead) :
    columns line.toList ≤ columnsAfter lead := by
  have room : 2 ≤ columnsAfter lead := Nat.le_trans (by decide) (Nat.le_max_left 20 _)
  obtain ⟨chars, listed, rfl⟩ := List.mem_map.1 member
  obtain ⟨paragraph, isLine, own⟩ := List.mem_flatMap.1 listed
  rw [String.toList_ofList]
  refine paragraphLines_fit room (fun escape => plain ?_) chars own
  exact (trim_isInfix description).subset ((isInfix_of_mem_lines isLine).subset escape)

/-- The lines of a description, in a block for each line it has itself. -/
theorem exists_blocks (description : String) (lead : Nat) :
    ∃ blocks, descriptionLines description lead = blocks.flatten ∧
      List.Forall₂ Wrapped (lines (trim description).toList) blocks := by
  refine ⟨(lines (trim description).toList).map fun paragraph =>
    (paragraphLines (columnsAfter lead) paragraph).map String.ofList, ?_, ?_⟩
  · rw [descriptionLines, List.map_flatMap, List.flatMap_def]
  · rw [List.forall₂_map_right_iff, List.forall₂_same]
    exact fun paragraph _ => wrapped_paragraphLines _ paragraph

theorem inkOf_descriptionLines (description : String) (lead : Nat) :
    inkOf (String.join (descriptionLines description lead)).toList =
      inkOf description.toList := by
  obtain ⟨blocks, same, wrapped⟩ := exists_blocks description lead
  have joined : inkOf (String.join blocks.flatten).toList =
      inkOf (lines (trim description).toList).flatten := by
    rw [String.toList_join]
    generalize lines (trim description).toList = paragraphs at wrapped
    clear same
    induction wrapped with
    | nil => rfl
    | cons first _ ih =>
      rw [List.flatten_cons, List.flatMap_append, inkOf_append, ih, ← String.toList_join,
        first.inkOf_join, List.flatten_cons, inkOf_append]
  rw [same, joined, inkOf_lines, trim, String.toList_ofList, inkOf_trimEnd, inkOf_trimStart]

/-- Whatever the indentation, the lines of a description fit, none goes on behind a line feed, and
nothing is lost but white space. They come in blocks, one for each line of the trimmed text. -/
theorem descriptionLines_fit (description : String) (lead : Nat)
    (plain : escapeChar ∉ description.toList) :
    (∀ line ∈ descriptionLines description lead,
      columns line.toList ≤ max 20 (80 - lead) ∧ '\n' ∉ line.toList) ∧
    inkOf (String.join (descriptionLines description lead)).toList = inkOf description.toList ∧
    ∃ blocks, descriptionLines description lead = blocks.flatten ∧
      List.Forall₂ Wrapped (lines (trim description).toList) blocks :=
  ⟨fun _ member => ⟨columns_descriptionLines plain member, oneLine_descriptionLines member⟩,
    inkOf_descriptionLines description lead, exists_blocks description lead⟩

/-- Two paragraphs around a blank line. A line breaks at a hyphen, and another one inside a word of
wide characters. -/
def crossReferenced : String :=
  "  A well-known cross-reference (漢字漢字漢字漢字漢字漢字)\r\n \t\n  On its own line. "

theorem descriptionLines_fit_crossReferenced :
    escapeChar ∉ crossReferenced.toList ∧
    descriptionLines crossReferenced 70 =
      ["A well-known cross-", "reference", "(漢字漢字漢字漢字漢", "字漢字)", "", "  On its own line."] ∧
    (∀ line ∈ descriptionLines crossReferenced 70,
      columns line.toList ≤ max 20 (80 - 70) ∧ '\n' ∉ line.toList) ∧
    inkOf (String.join (descriptionLines crossReferenced 70)).toList =
      inkOf crossReferenced.toList ∧
    ∃ blocks, descriptionLines crossReferenced 70 = blocks.flatten ∧
      List.Forall₂ Wrapped (lines (trim crossReferenced).toList) blocks := by
  have plain : escapeChar ∉ crossReferenced.toList := by decide +kernel
  exact ⟨plain, by decide +kernel, descriptionLines_fit crossReferenced 70 plain⟩

end Describing

end SchemaBindings.Text
