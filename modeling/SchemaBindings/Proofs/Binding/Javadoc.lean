import SchemaBindings.Proofs.Binding.CommentBounds
import SchemaBindings.Proofs.Text.UnicodeEscapes

/-! Block comments in Java, where Unicode escapes are translated before comments are found. A
description is written without regard to its escapes: one that is ill-formed, or that stands for a part
of `*/`, breaks the comment, and nothing else does. -/

namespace SchemaBindings.Binding

open Text (Apart Translates apart_append apart_of_not_mem translate? translated unlines)

/-- The escapes of a line are well formed, and when they are translated it closes no comment. -/
def StaysOpen (line : String) : Prop := Translates line ∧ Apart '*' '/' (translated line).toList

instance (line : String) : Decidable (StaysOpen line) := inferInstanceAs (Decidable (_ ∧ _))

/-- The escapes of a comment are well formed, and when they are translated it still closes once, at
its end. -/
def Survives (comment : String) : Prop :=
  ∃ text, translate? comment.toList = some text ∧ ClosesAtEnd text

theorem staysOpen_of_apart {line : String} (plain : Apart '\\' 'u' line.toList)
    (open' : Apart '*' '/' line.toList) : StaysOpen line := by
  obtain ⟨translates, same⟩ := Text.translates_of_apart plain
  exact ⟨translates, same.symm ▸ open'⟩

/-- Text without backslashes at the start of a line stays as it is. -/
theorem translates_append {start : String} (plain : '\\' ∉ start.toList) (line : String) :
    (Translates (start ++ line) ↔ Translates line) ∧
      (Translates line → translated (start ++ line) = start ++ translated line) := by
  have whole := Text.translate?_append plain line.toList
  rw [← String.toList_append] at whole
  refine ⟨?_, fun translates => ?_⟩
  · rw [Text.translates_iff, Text.translates_iff, whole]
    simp
  · rw [Text.Translates] at translates
    rw [translated, whole, translates]
    simp

section Blocks

variable {indent : String} (blank : Blank indent.toList)

include blank

theorem backslash_not_mem {more : String} (plain : '\\' ∉ more.toList) :
    '\\' ∉ (indent ++ more).toList := by
  rw [String.toList_append]
  exact fun backslash =>
    (List.mem_append.1 backslash).elim (not_mem_of_blank blank rfl) plain

/-- The lead of a line makes no difference. -/
theorem staysOpen_commentLine {line : String} :
    StaysOpen (commentLine (indent ++ " * ") line) ↔ StaysOpen line := by
  rw [commentLine]
  split
  · rename_i empty
    obtain rfl : line = "" := String.isEmpty_iff.1 empty
    have starred : '\\' ∉ (indent ++ " *").toList := backslash_not_mem blank (by decide)
    rw [trimEnd_starred, ← String.toList_append, String.ofList_toList]
    refine iff_of_true ?_ ?_
    · refine staysOpen_of_apart (apart_of_not_mem (.inl starred)) (apart_of_not_mem (.inr ?_))
      rw [String.toList_append]
      exact slash_not_mem_starred blank (by decide)
    · exact staysOpen_of_apart (by decide) (by decide)
  · have lead : '\\' ∉ (indent ++ " * ").toList := backslash_not_mem blank (by decide)
    obtain ⟨translates, same⟩ := translates_append lead line
    rw [StaysOpen, StaysOpen, translates]
    refine and_congr_right fun known => ?_
    rw [same known, String.toList_append, apart_starred blank]

/-- A block comment survives when each of its lines stays open. -/
theorem survives_unlines {lines : List String} :
    Survives (unlines (lines ++ [indent ++ " */"])) ↔ ∀ line ∈ lines, StaysOpen line := by
  have starred : '\\' ∉ (indent ++ " */").toList := backslash_not_mem blank (by decide)
  obtain ⟨last, same⟩ := Text.translates_of_apart (apart_of_not_mem (b := 'u') (.inl starred))
  have closes : ClosesAtEnd (unlines ((lines ++ [indent ++ " */"]).map translated)).toList ↔
      ∀ line ∈ lines, Apart '*' '/' (translated line).toList := by
    rw [List.map_append, List.map_singleton, same, closesAtEnd_unlines blank, List.forall_mem_map]
  constructor
  · rintro ⟨text, whole, closed⟩
    obtain ⟨each, rfl⟩ := Text.translate?_unlines.1 whole
    intro line member
    exact ⟨each line (List.mem_append_left _ member), closes.1 closed line member⟩
  · intro each
    refine ⟨_, Text.translate?_unlines.2 ⟨List.forall_mem_append.2 ⟨?_, ?_⟩, rfl⟩, closes.2 ?_⟩
    · exact fun line member => (each line member).1
    · exact List.forall_mem_singleton.2 last
    · exact fun line member => (each line member).2

end Blocks

/-- The lines that a description takes in a block comment. -/
def javadocLines (indent description : String) : List String :=
  descriptionLines (String.ofList (replaceClose "*&#47;".toList description.toList))
    (indent ++ " * ").utf8ByteSize

/-- Without a backslash before a `u` in the description there is none in its comment. -/
theorem apart_comment {indent : String} (blank : Blank indent.toList) {description : String}
    (plain : Apart '\\' 'u' description.toList) :
    Apart '\\' 'u' (unlines (JavaClasses.comment indent (some description))).toList := by
  have harmless : Harmless '\\' 'u' "*&#47;".toList :=
    ⟨by decide, by decide, by decide, by decide⟩
  have noBackslash {more : String} (free : '\\' ∉ more.toList) :
      Apart '\\' 'u' (indent ++ more).toList :=
    apart_of_not_mem (.inl (backslash_not_mem blank free))
  have inside : ∀ line ∈ javadocLines indent description,
      Apart '\\' 'u' (commentLine (indent ++ " * ") line).toList := by
    intro line member
    have stretch := Text.isInfix_of_mem_descriptionLines member
    rw [String.toList_ofList] at stretch
    have apart := (apart_replaceClose harmless (.inl plain)).of_isInfix stretch
    rw [commentLine]
    split
    · rw [String.toList_ofList, trimEnd_starred, ← String.toList_append]
      exact noBackslash (by decide)
    · rw [String.toList_append]
      refine apart_append.2 ⟨noBackslash (by decide), apart, fun seam => ?_⟩
      exact backslash_not_mem blank (by decide) (List.mem_of_getLast? seam.1)
  rw [JavaClasses.comment, blockComment]
  refine (Text.apart_unlines (by decide) (by decide)).2 (List.forall_mem_append.2 ⟨?_, ?_⟩)
  · exact List.forall_mem_cons.2 ⟨noBackslash (by decide), List.forall_mem_map.2 inside⟩
  · exact List.forall_mem_singleton.2 (noBackslash (by decide))

/-- A description breaks its comment only by its escapes. After the translation of escapes the comment
is well formed and still closes once, at its end, if and only if that holds of each of its lines; and
without a backslash before a `u` the translation changes nothing. -/
theorem survives_comment {indent : String} (blank : Blank indent.toList) (description : String) :
    (Survives (unlines (JavaClasses.comment indent (some description))) ↔
      ∀ line ∈ javadocLines indent description, StaysOpen line) ∧
    (Apart '\\' 'u' description.toList →
      translate? (unlines (JavaClasses.comment indent (some description))).toList =
        some (unlines (JavaClasses.comment indent (some description))).toList ∧
      ClosesAtEnd (unlines (JavaClasses.comment indent (some description))).toList) := by
  constructor
  · have opening : StaysOpen (indent ++ "/**") :=
      staysOpen_of_apart (apart_of_not_mem (.inl (backslash_not_mem blank (by decide))))
        (apart_opening blank)
    rw [JavaClasses.comment, blockComment, survives_unlines blank, List.forall_mem_cons, lineComment,
      List.forall_mem_map]
    simp only [opening, true_and, staysOpen_commentLine blank]
    rfl
  · intro plain
    exact ⟨Text.translate?_of_apart (apart_comment blank plain),
      (isBlockComment_blockComment blank harmless_java description).closes⟩

/-- An escape that is well formed, and the end of a comment. -/
theorem survives_comment_cafe :
    Blank "    ".toList ∧
      Survives (unlines (JavaClasses.comment "    " (some "caf\\u00e9 */"))) ∧
      Apart '\\' 'u' "C:\\temp\\".toList ∧
      ClosesAtEnd (unlines (JavaClasses.comment "    " (some "C:\\temp\\"))).toList := by
  have blank : Blank "    ".toList := by decide
  have lines : javadocLines "    " "caf\\u00e9 */" = ["caf\\u00e9 *&#47;"] := by decide +kernel
  have stays : StaysOpen "caf\\u00e9 *&#47;" := by decide +kernel
  have plain : Apart '\\' 'u' "C:\\temp\\".toList := by decide
  obtain ⟨cafe, -⟩ := survives_comment blank "caf\\u00e9 */"
  obtain ⟨-, temp⟩ := survives_comment blank "C:\\temp\\"
  refine ⟨blank, cafe.2 ?_, plain, (temp plain).2⟩
  rw [lines]
  exact List.forall_mem_singleton.2 stays

/-- A path with a folder whose name starts with `u` is no well-formed escape, and the escape of a star
closes the comment with the slash behind it. -/
theorem broken_by_escapes :
    ¬ Survives (unlines (JavaClasses.comment "" (some "C:\\users"))) ∧
      ¬ Survives (unlines (JavaClasses.comment "" (some "\\u002a/ code"))) := by
  constructor
  · rintro ⟨text, whole, -⟩
    have illFormed : translate? (unlines (JavaClasses.comment "" (some "C:\\users"))).toList =
        none := by decide +kernel
    cases illFormed.symm.trans whole
  · rintro ⟨text, whole, closes⟩
    have early : translate? (unlines (JavaClasses.comment "" (some "\\u002a/ code"))).toList =
        some ("/**\n * */ code\n ".toList ++ "*/\n".toList) := by decide +kernel
    obtain rfl := Option.some.inj (whole.symm.trans early)
    exact absurd (closesAtEnd_append.1 closes) (by decide)

end SchemaBindings.Binding
