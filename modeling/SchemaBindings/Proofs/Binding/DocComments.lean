import SchemaBindings.Binding.Unsupported
import SchemaBindings.Proofs.Text.Lines

/-! Deleting the doc comments of a file. Of a comment nothing is left, and of lines of code all; what
is left of lines that are put together is put together from what is left of each. -/

namespace SchemaBindings.Binding

open Text (OneLine physical splitAtEach)

section Deleting

def isIndentation (c : Char) : Bool := c == ' ' || c == '\t'

def unindented (line : List Char) : List Char := line.dropWhile isIndentation

/-- Deletes each block from a line `/**` through the next line `*/`. -/
def deleteBlocks (inside : Bool) : List (List Char) → List (List Char)
  | [] => []
  | line :: rest =>
    if inside then deleteBlocks (unindented line != "*/".toList) rest
    else if unindented line = "/**".toList then deleteBlocks true rest
    else line :: deleteBlocks false rest

def isRustDoc (line : List Char) : Bool := "///".toList.isPrefixOf (unindented line)

def isGoDoc (line : List Char) : Bool := "//".toList.isPrefixOf (line.dropWhile (· == '\t'))

def deleteDocs : Language → List (List Char) → List (List Char)
  | .java => deleteBlocks false
  | .rust => List.filter (!isRustDoc ·)
  | .go => List.filter (!isGoDoc ·)
  | .typescript => deleteBlocks false

/-- The lines of a file that are left without doc comments. -/
def withoutDocs (language : Language) (contents : String) : List (List Char) :=
  deleteDocs language (splitAtEach (· == '\n') contents.toList)

end Deleting

/-- What is left of lines without their doc comments, whatever follows them. -/
def Leaves (language : Language) (lines kept : List String) : Prop :=
  ∀ rest, deleteDocs language (physical lines ++ rest) =
    kept.map String.toList ++ deleteDocs language rest

section Composing

variable {language : Language}

theorem Leaves.nil : Leaves language [] [] := fun _ => rfl

theorem Leaves.append {xs xs' ys ys' : List String} (first : Leaves language xs ys)
    (later : Leaves language xs' ys') : Leaves language (xs ++ xs') (ys ++ ys') := by
  intro rest
  rw [Text.physical_append, List.append_assoc, first, later, List.map_append, List.append_assoc]

theorem Leaves.cons {line : String} {xs ys : List String} (first : Leaves language [line] [line])
    (later : Leaves language xs ys) : Leaves language (line :: xs) (line :: ys) :=
  first.append later

theorem Leaves.flatMap {α : Type} {entries : List α} {f g : α → List String}
    (each : ∀ entry ∈ entries, Leaves language (f entry) (g entry)) :
    Leaves language (entries.flatMap f) (entries.flatMap g) := by
  induction entries with
  | nil => exact .nil
  | cons entry rest ih =>
    obtain ⟨first, later⟩ := List.forall_mem_cons.1 each
    rw [List.flatMap_cons, List.flatMap_cons]
    exact first.append (ih later)

theorem Leaves.self_of_each {lines : List String}
    (each : ∀ line ∈ lines, Leaves language [line] [line]) : Leaves language lines lines := by
  induction lines with
  | nil => exact .nil
  | cons line rest ih =>
    obtain ⟨first, later⟩ := List.forall_mem_cons.1 each
    exact .cons first (ih later)

/-- The text ends with a line feed, so one empty line is left behind it. -/
theorem Leaves.contents {xs ys : List String} (leaves : Leaves language xs ys) :
    withoutDocs language (Text.unlines xs) = ys.map String.toList ++ [[]] := by
  rw [withoutDocs, Text.splitAtEach_unlines, leaves]
  cases language <;> rfl

theorem mem_deleteBlocks {line : List Char} {lines : List (List Char)} (inside : Bool)
    (left : line ∈ deleteBlocks inside lines) :
    line ∈ lines ∧ ∀ rest, deleteBlocks false (line :: rest) = line :: deleteBlocks false rest := by
  induction lines generalizing inside with
  | nil => cases left
  | cons first others ih =>
    rw [deleteBlocks] at left
    split at left
    · exact (ih _ left).imp_left (List.mem_cons_of_mem _)
    · split at left
      · exact (ih _ left).imp_left (List.mem_cons_of_mem _)
      · rename_i plain
        rcases List.mem_cons.1 left with rfl | later
        · refine ⟨List.mem_cons_self, fun rest => ?_⟩
          rw [deleteBlocks, if_neg Bool.false_ne_true, if_neg plain]
        · exact (ih _ later).imp_left (List.mem_cons_of_mem _)

/-- What is left once is not deleted later. -/
theorem mem_deleteDocs {line : List Char} {lines : List (List Char)}
    (left : line ∈ deleteDocs language lines) :
    line ∈ lines ∧ ∀ rest, deleteDocs language (line :: rest) =
      line :: deleteDocs language rest := by
  have ofFilter {keep : List Char → Bool} (left : line ∈ lines.filter keep) :
      line ∈ lines ∧ ∀ rest, (line :: rest).filter keep = line :: rest.filter keep :=
    ⟨(List.mem_filter.1 left).1, fun _ => List.filter_cons_of_pos (List.mem_filter.1 left).2⟩
  cases language with
  | java => exact mem_deleteBlocks false left
  | rust => exact ofFilter left
  | go => exact ofFilter left
  | typescript => exact mem_deleteBlocks false left

/-- Without its doc comments a text has none. -/
theorem Leaves.self {xs ys : List String} (leaves : Leaves language xs ys) :
    Leaves language ys ys := by
  refine .self_of_each fun line member rest => ?_
  have left : line.toList ∈ deleteDocs language (physical xs ++ []) := by
    rw [leaves]
    exact List.mem_append_left _ (List.mem_map_of_mem member)
  obtain ⟨printed, stays⟩ := mem_deleteDocs left
  rw [List.append_nil] at printed
  obtain ⟨source, -, piece⟩ := List.mem_flatMap.1 printed
  have single : OneLine line.toList := fun feed =>
    absurd (Text.not_separator_of_mem_splitAtEach piece _ feed) (by decide)
  have alone : physical [line] = [line.toList] := by
    rw [physical, List.flatMap_singleton, Text.splitAtEach_of_oneLine single]
  rw [alone, List.singleton_append, stays]
  rfl

/-- Behind the same lines, lines and what is left of them make the same text but for doc comments. -/
theorem Leaves.same_behind {head kept xs ys : List String} (before : Leaves language head kept)
    (leaves : Leaves language xs ys) :
    withoutDocs language (Text.unlines (head ++ xs)) =
      withoutDocs language (Text.unlines (head ++ ys)) :=
  (before.append leaves).contents.trans (before.append leaves.self).contents.symm

end Composing

section Comments

/-- What a line of a comment is: its lead and a line of the description, or the lead alone. -/
theorem line_of_comment {lead description : String} (single : OneLine lead.toList)
    {line : List Char} (printed : line ∈ physical (lineComment lead (some description))) :
    line = Unicode.trimEnd lead.toList ∨ ∃ text, line = lead.toList ++ text := by
  obtain ⟨comment, listed, inside⟩ := List.mem_flatMap.1 printed
  obtain ⟨text, wrapped, rfl⟩ := List.mem_map.1 listed
  by_cases empty : text.isEmpty = true
  · have bare : (commentLine lead text).toList = Unicode.trimEnd lead.toList := by
      rw [commentLine, if_pos empty, String.toList_ofList]
    have alone : OneLine (commentLine lead text).toList :=
      bare ▸ single.of_subset fun _ => Text.mem_of_mem_trimEnd
    rw [Text.splitAtEach_of_oneLine alone, List.mem_singleton] at inside
    exact .inl (inside.trans bare)
  · have full : (commentLine lead text).toList = lead.toList ++ text.toList := by
      rw [commentLine, if_neg empty, String.toList_append]
    have alone : OneLine (commentLine lead text).toList :=
      full ▸ Text.oneLine_append.2 ⟨single, Text.oneLine_descriptionLines wrapped⟩
    rw [Text.splitAtEach_of_oneLine alone, List.mem_singleton] at inside
    exact .inr ⟨text.toList, inside.trans full⟩

end Comments

section LineComments

variable {language : Language} {isDoc : List Char → Bool}

theorem judged_rust : deleteDocs .rust = List.filter (!isRustDoc ·) := rfl

theorem judged_go : deleteDocs .go = List.filter (!isGoDoc ·) := rfl

/-- Nothing is left of a comment where each line is judged alone. -/
theorem leaves_lineComment (judged : deleteDocs language = List.filter (!isDoc ·)) {lead : String}
    (single : OneLine lead.toList) (led : ∀ text, isDoc (lead.toList ++ text) = true)
    (bare : isDoc (Unicode.trimEnd lead.toList) = true) (described : Option String) :
    Leaves language (lineComment lead described) [] := by
  cases described with
  | none => exact .nil
  | some description =>
    intro rest
    have gone : (physical (lineComment lead (some description))).filter (!isDoc ·) = [] := by
      refine List.filter_eq_nil_iff.2 fun line printed => ?_
      rcases line_of_comment single printed with rfl | ⟨text, rfl⟩
      · simp [bare]
      · simp [led]
    rw [judged, List.filter_append, gone]
    rfl

end LineComments

section Coding

/-- A line of code, which is part of no doc comment. -/
def Code (line : String) : Prop :=
  OneLine line.toList ∧ (unindented line.toList).head? ≠ some '/'

/-- The start of a line of code, which may go on with anything. -/
def Begun (line : String) : Prop :=
  OneLine line.toList ∧ (unindented line.toList).head?.any (· != '/') = true

instance (line : String) : Decidable (Begun line) := inferInstanceAs (Decidable (_ ∧ _))

instance (line : String) : Decidable (Code line) := inferInstanceAs (Decidable (_ ∧ _))

theorem Begun.append {line more : String} (begun : Begun line) (single : OneLine more.toList) :
    Begun (line ++ more) := by
  refine ⟨?_, ?_⟩
  · rw [String.toList_append]
    exact Text.oneLine_append.2 ⟨begun.1, single⟩
  · obtain ⟨-, head⟩ := begun
    rw [String.toList_append, unindented, List.dropWhile_append]
    split
    · rename_i blank
      rw [unindented, List.isEmpty_iff.1 blank] at head
      cases head
    · rename_i ink
      rw [unindented] at head
      cases shown : line.toList.dropWhile isIndentation with
      | nil => simp [shown] at ink
      | cons c rest =>
        rw [shown] at head
        exact head

theorem Begun.code {line : String} (begun : Begun line) : Code line := by
  refine ⟨begun.1, fun opens => ?_⟩
  have head := begun.2
  rw [opens] at head
  exact absurd head (by decide)

/-- Tabs are part of the indentation. -/
theorem unindented_dropTabs (line : List Char) :
    unindented (line.dropWhile (· == '\t')) = unindented line := by
  induction line with
  | nil => rfl
  | cons c rest ih =>
    by_cases tab : c = '\t'
    · subst tab
      exact ih
    · rw [List.dropWhile_cons_of_neg (by simpa using tab)]

theorem leaves_code {language : Language} {line : String} (code : Code line) :
    Leaves language [line] [line] := by
  intro rest
  obtain ⟨single, head⟩ := code
  have printed : physical [line] = [line.toList] := by
    rw [physical, List.flatMap_singleton, Text.splitAtEach_of_oneLine single]
  have kept : deleteDocs language (line.toList :: rest) =
      line.toList :: deleteDocs language rest := by
    have ofFilter {isDoc : List Char → Bool} (plain : isDoc line.toList = false) :
        (line.toList :: rest).filter (!isDoc ·) = line.toList :: rest.filter (!isDoc ·) :=
      List.filter_cons_of_pos (by simp [plain])
    have ofBlocks : deleteBlocks false (line.toList :: rest) =
        line.toList :: deleteBlocks false rest := by
      have opens : unindented line.toList ≠ "/**".toList := fun same => head (by rw [same]; rfl)
      rw [deleteBlocks, if_neg Bool.false_ne_true, if_neg opens]
    cases language with
    | java => exact ofBlocks
    | typescript => exact ofBlocks
    | rust =>
      refine ofFilter (Bool.eq_false_iff.2 fun doc => head ?_)
      obtain ⟨more, same⟩ := List.isPrefixOf_iff_prefix.1 doc
      rw [← same]
      rfl
    | go =>
      refine ofFilter (Bool.eq_false_iff.2 fun doc => head ?_)
      obtain ⟨more, same⟩ := List.isPrefixOf_iff_prefix.1 doc
      rw [← unindented_dropTabs, ← same]
      rfl
  rw [printed, List.singleton_append, kept]
  rfl

theorem leaves_begun {language : Language} {line : String} (begun : Begun line) :
    Leaves language [line] [line] :=
  leaves_code begun.code

theorem leaves_codes {language : Language} {lines : List String}
    (code : ∀ line ∈ lines, Code line) : Leaves language lines lines :=
  .self_of_each fun line member => leaves_code (code line member)

end Coding

section Blocks

/-- A block ends at its closing line when no line before looks like that. -/
theorem deleteBlocks_until {lines : List (List Char)}
    (open' : ∀ line ∈ lines, unindented line ≠ "*/".toList) {close : List Char}
    (closes : unindented close = "*/".toList) (rest : List (List Char)) :
    deleteBlocks true (lines ++ close :: rest) = deleteBlocks false rest := by
  induction lines with
  | nil => simp [deleteBlocks, closes]
  | cons line others ih =>
    obtain ⟨first, later⟩ := List.forall_mem_cons.1 open'
    have stays : (unindented line != "*/".toList) = true := bne_iff_ne.2 first
    rw [List.cons_append, deleteBlocks, if_pos rfl, stays]
    exact ih later

def Blank (indent : List Char) : Prop := ∀ c ∈ indent, isIndentation c = true

instance (indent : List Char) : Decidable (Blank indent) :=
  decidable_of_iff (indent.all isIndentation = true) List.all_eq_true

theorem unindented_append {indent : List Char} (blank : Blank indent)
    (text : List Char) : unindented (indent ++ text) = unindented text :=
  List.dropWhile_append_of_pos blank

theorem oneLine_of_blank {indent : List Char} (blank : Blank indent) : OneLine indent :=
  fun feed => absurd (blank _ feed) (by decide)

theorem trimEnd_starred (indent : String) :
    Unicode.trimEnd (indent ++ " * ").toList = indent.toList ++ " *".toList := by
  have star : Unicode.isBlank '*' = false := by decide
  have space : Unicode.isBlank ' ' = true := by decide
  simp [Unicode.trimEnd, star, space]

/-- No line inside a block looks like its end: after the star there is a space, or nothing. -/
theorem not_close_of_comment {indent description : String} (blank : Blank indent.toList) :
    ∀ line ∈ physical (lineComment (indent ++ " * ") (some description)),
      unindented line ≠ "*/".toList := by
  have single : OneLine (indent ++ " * ").toList := by
    rw [String.toList_append]
    exact Text.oneLine_append.2 ⟨oneLine_of_blank blank, by decide⟩
  intro line printed
  rcases line_of_comment single printed with rfl | ⟨text, rfl⟩
  · rw [trimEnd_starred, unindented_append blank]
    decide
  · rw [String.toList_append, List.append_assoc, unindented_append blank]
    exact fun same => absurd (List.cons.inj (List.cons.inj same).2).1 (by decide)

theorem leaves_blockComment {language : Language}
    (blocks : deleteDocs language = deleteBlocks false) {indent : String}
    (blank : Blank indent.toList) (close : String) (described : Option String) :
    Leaves language (blockComment indent close described) [] := by
  cases described with
  | none => exact .nil
  | some description =>
    intro rest
    have alone {end' : String} (single : OneLine end'.toList) :
        physical [indent ++ end'] = [indent.toList ++ end'.toList] := by
      have whole := Text.oneLine_append.2 ⟨oneLine_of_blank blank, single⟩
      rw [physical, List.flatMap_singleton, String.toList_append,
        Text.splitAtEach_of_oneLine whole]
    rw [blocks, blockComment, List.cons_append, ← List.singleton_append, Text.physical_append,
      Text.physical_append, alone (by decide), alone (by decide), List.singleton_append,
      List.cons_append, List.append_assoc, List.singleton_append]
    rw [deleteBlocks, if_neg Bool.false_ne_true, unindented_append blank, if_pos (by decide),
      deleteBlocks_until (not_close_of_comment blank) (by rw [unindented_append blank]; decide)]
    rfl

end Blocks

end SchemaBindings.Binding
