import SchemaBindings.Binding.JavaClasses
import SchemaBindings.Binding.TypeScriptModule
import SchemaBindings.Proofs.Binding.DocComments
import SchemaBindings.Proofs.Text.Adjacent

/-! No description leaves its comment. Every line of it is led by the marker of the comment, and a
block comment is closed once, at its end. -/

namespace SchemaBindings.Binding

open Text (Apart OneLine apart_append apart_of_not_mem unlines)

section Led

/-- Lines that are ended by line feeds, each of which starts with the same text. -/
def Led (start : List Char) (text : String) : Prop :=
  ∃ lines, text = unlines lines ∧
    ∀ line ∈ lines, OneLine line.toList ∧ start <+: line.toList

theorem prefix_commentLine (lead line : String) :
    Unicode.trimEnd lead.toList <+: (commentLine lead line).toList := by
  rw [commentLine]
  split
  · simp only [String.toList_ofList, List.prefix_refl]
  · rw [String.toList_append]
    exact (Text.trimEnd_isPrefix lead.toList).trans (List.prefix_append _ _)

theorem oneLine_commentLine {lead line : String} (led : OneLine lead.toList)
    (single : OneLine line.toList) : OneLine (commentLine lead line).toList := by
  rw [commentLine]
  split
  · rw [String.toList_ofList]
    exact led.of_subset fun _ => Text.mem_of_mem_trimEnd
  · rw [String.toList_append]
    exact Text.oneLine_append.2 ⟨led, single⟩

theorem led_lineComment {lead : String} (single : OneLine lead.toList) (description : String) :
    Led (Unicode.trimEnd lead.toList) (unlines (lineComment lead (some description))) := by
  refine ⟨_, rfl, List.forall_mem_map.2 fun line member => ?_⟩
  exact ⟨oneLine_commentLine single (Text.oneLine_descriptionLines member),
    prefix_commentLine lead line⟩

end Led

section Closing

/-- A text that brings about no `b` right behind an `a`, whatever it is put between. -/
structure Harmless (a b : Char) (replacement : List Char) : Prop where
  some' : replacement ≠ []
  apart : Apart a b replacement
  starts : replacement.head? ≠ some b
  ends : replacement.getLast? ≠ some a

theorem head?_replaceClose {a b : Char} {replacement : List Char}
    (harmless : Harmless a b replacement) {text : List Char}
    (head : (replaceClose replacement text).head? = some b) : text.head? = some b := by
  fun_cases replaceClose replacement text with
  | case1 => exact head
  | case2 rest =>
    obtain ⟨c, others, same⟩ := List.exists_cons_of_ne_nil harmless.some'
    rw [replaceClose, same] at head
    exact absurd (same ▸ head) harmless.starts
  | case3 c rest open' =>
    rw [replaceClose] at head
    · exact head
    · exact open'

/-- Replacing each `*/` leaves none, and makes no other pair that was not there. -/
theorem apart_replaceClose {a b : Char} {replacement : List Char}
    (harmless : Harmless a b replacement) {text : List Char}
    (own : Apart a b text ∨ a = '*' ∧ b = '/') : Apart a b (replaceClose replacement text) := by
  fun_induction replaceClose replacement text with
  | case1 => exact apart_of_not_mem (.inl List.not_mem_nil)
  | case2 rest ih =>
    have later := own.imp_left (·.of_isInfix (List.suffix_append ['*', '/'] rest).isInfix)
    exact apart_append.2 ⟨harmless.apart, ih later, fun seam => harmless.ends seam.1⟩
  | case3 c rest open' ih =>
    have later := own.imp_left (·.of_isInfix (List.suffix_cons c rest).isInfix)
    rw [← List.singleton_append, apart_append]
    refine ⟨fun pair => ?_, ih later, fun ⟨last, head⟩ => ?_⟩
    · exact absurd pair.length_le (by simp)
    · obtain rfl : c = a := Option.some.inj last
      obtain ⟨others, rfl⟩ := List.head?_eq_some_iff.1 (head?_replaceClose harmless head)
      rcases own with apart | ⟨rfl, rfl⟩
      · exact apart ⟨[], others, rfl⟩
      · exact open' others rfl rfl

/-- The text ends with `*/` and a line feed, and has no other `*/`. -/
def ClosesAtEnd (text : List Char) : Prop :=
  ∃ front, text = front ++ "*/\n".toList ∧ Apart '*' '/' (front ++ ['*'])

theorem closesAtEnd_append {front : List Char} :
    ClosesAtEnd (front ++ "*/\n".toList) ↔ Apart '*' '/' (front ++ ['*']) := by
  constructor
  · rintro ⟨other, same, apart⟩
    rwa [List.append_cancel_right same]
  · exact fun apart => ⟨front, rfl, apart⟩

section Blocks

variable {indent : String} (blank : Blank indent.toList)

include blank

theorem not_mem_of_blank {c : Char} (ink : isIndentation c = false) : c ∉ indent.toList := by
  intro member
  have space := blank c member
  rw [ink] at space
  cases space

theorem slash_not_mem_starred {star : List Char} (free : '/' ∉ star) :
    '/' ∉ indent.toList ++ star :=
  fun slash => (List.mem_append.1 slash).elim (not_mem_of_blank blank rfl) free

theorem apart_opening : Apart '*' '/' (indent ++ "/**").toList := by
  have starless : '*' ∉ indent.toList := not_mem_of_blank blank rfl
  rw [String.toList_append, apart_append]
  exact ⟨apart_of_not_mem (.inl starless), by decide,
    fun seam => starless (List.mem_of_getLast? seam.1)⟩

/-- Behind the star of a line there is a space, so what follows closes the comment by itself or not
at all. -/
theorem apart_starred {text : List Char} :
    Apart '*' '/' ((indent ++ " * ").toList ++ text) ↔ Apart '*' '/' text := by
  have lead : Apart '*' '/' (indent ++ " * ").toList := by
    rw [String.toList_append]
    exact apart_of_not_mem (.inr (slash_not_mem_starred blank (by decide)))
  have seam : ¬ ((indent ++ " * ").toList.getLast? = some '*' ∧ text.head? = some '/') := by
    rintro ⟨last, -⟩
    rw [String.toList_append, List.getLast?_append] at last
    exact absurd (Option.some.inj last) (by decide)
  rw [apart_append]
  simp only [lead, seam, not_false_eq_true, true_and, and_true]

theorem apart_commentLine {line : String} (apart : Apart '*' '/' line.toList) :
    Apart '*' '/' (commentLine (indent ++ " * ") line).toList := by
  rw [commentLine]
  split
  · rw [String.toList_ofList, trimEnd_starred]
    exact apart_of_not_mem (.inr (slash_not_mem_starred blank (by decide)))
  · rw [String.toList_append]
    exact (apart_starred blank).2 apart

/-- A block comment closes at its end when nothing in its lines closes it. -/
theorem closesAtEnd_unlines {lines : List String} :
    ClosesAtEnd (unlines (lines ++ [indent ++ " */"])).toList ↔
      ∀ line ∈ lines, Apart '*' '/' line.toList := by
  have text : (unlines (lines ++ [indent ++ " */"])).toList =
      ((unlines lines).toList ++ indent.toList ++ [' ']) ++ "*/\n".toList := by
    rw [Text.unlines_append, String.toList_append, Text.toList_unlines_cons]
    simp [unlines]
  have noSlash : '/' ∉ indent.toList ++ [' ', '*'] := slash_not_mem_starred blank (by decide)
  have last : Apart '*' '/' (indent.toList ++ [' ', '*']) := apart_of_not_mem (.inr noSlash)
  have seam : ¬ ((unlines lines).toList.getLast? = some '*' ∧
      (indent.toList ++ [' ', '*']).head? = some '/') :=
    fun seam => noSlash (List.mem_of_head? seam.2)
  rw [text, closesAtEnd_append, List.append_assoc, List.append_assoc, List.singleton_append,
    apart_append]
  simp only [last, seam, not_false_eq_true, and_true]
  exact Text.apart_unlines (by decide) (by decide)

/-- A block comment: its first line opens it, its last line closes it, and each line between them
starts with a star. -/
structure IsBlockComment (indent text : String) : Prop where
  lines : ∃ inside, text = unlines [indent ++ "/**"] ++ inside ++ unlines [indent ++ " */"] ∧
    Led (indent ++ " *").toList inside
  closes : ClosesAtEnd text.toList

theorem isBlockComment_blockComment {close : String} (harmless : Harmless '*' '/' close.toList)
    (description : String) :
    IsBlockComment indent (unlines (blockComment indent close (some description))) := by
  have lead : OneLine (indent ++ " * ").toList := by
    rw [String.toList_append]
    exact Text.oneLine_append.2 ⟨oneLine_of_blank blank, by decide⟩
  let text := String.ofList (replaceClose close.toList description.toList)
  refine ⟨⟨unlines (lineComment (indent ++ " * ") (some text)), ?_, ?_⟩, ?_⟩
  · rw [blockComment, ← List.singleton_append, Text.unlines_append, Text.unlines_append,
      String.append_assoc]
  · have led := led_lineComment lead text
    rwa [trimEnd_starred, ← String.toList_append] at led
  · rw [blockComment]
    refine (closesAtEnd_unlines blank).2 (List.forall_mem_cons.2 ⟨apart_opening blank, ?_⟩)
    refine List.forall_mem_map.2 fun line member => apart_commentLine blank ?_
    have stretch := Text.isInfix_of_mem_descriptionLines member
    rw [String.toList_ofList] at stretch
    exact (apart_replaceClose harmless (.inr ⟨rfl, rfl⟩)).of_isInfix stretch

end Blocks

end Closing

theorem harmless_java : Harmless '*' '/' "*&#47;".toList :=
  ⟨by decide, by decide, by decide, by decide⟩

theorem harmless_typescript : Harmless '*' '/' "*\\/".toList :=
  ⟨by decide, by decide, by decide, by decide⟩

/-- Descriptions stay inside their comments: behind a lead, each line starts with it, less the space
at its end; in a block, each line starts with a star, and the block is closed once, at its end. -/
theorem description_stays_inside (description : String) {lead indent : String}
    (single : OneLine lead.toList) (blank : Blank indent.toList) :
    Led (Unicode.trimEnd lead.toList) (unlines (lineComment lead (some description))) ∧
      IsBlockComment indent (unlines (JavaClasses.comment indent (some description))) ∧
      IsBlockComment indent (unlines (TypeScriptModule.comment indent (some description))) :=
  ⟨led_lineComment single description, isBlockComment_blockComment blank harmless_java description,
    isBlockComment_blockComment blank harmless_typescript description⟩

/-- The lines of this text close a comment, one by itself and one when it is joined to what stands
before it; one is blank, and one is too long for a line. -/
def unruly : String :=
  "**//\n/ and then */ \n\n  */-*/" ++ String.ofList (List.replicate 90 '*') ++ "/"

theorem unruly_stays_inside :
    OneLine "    /// ".toList ∧ Blank "\t  ".toList ∧
      Led "    ///".toList (unlines (lineComment "    /// " (some unruly))) ∧
      IsBlockComment "\t  " (unlines (JavaClasses.comment "\t  " (some unruly))) ∧
      IsBlockComment "\t  " (unlines (TypeScriptModule.comment "\t  " (some unruly))) := by
  have single : OneLine "    /// ".toList := by decide
  have blank : Blank "\t  ".toList := by decide
  obtain ⟨led, java, typescript⟩ := description_stays_inside unruly single blank
  have start : Unicode.trimEnd "    /// ".toList = "    ///".toList := by decide
  exact ⟨single, blank, start ▸ led, java, typescript⟩

end SchemaBindings.Binding
