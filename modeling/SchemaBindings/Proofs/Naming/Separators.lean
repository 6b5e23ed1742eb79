import SchemaBindings.Binding.GoPackage
import SchemaBindings.Proofs.Text.Lines

/-! A character that is not alphanumeric parts a name in two. Neither a change of case nor the lower
case of a sigma is looked for across it, so the words on its two sides are those of two names. The
name of a type then tells nothing of a path but the words in it. -/

namespace SchemaBindings.Naming

section Separators

variable {separator : Char} (separates : Unicode.isAlphanumeric separator = false)
include separates

theorem pieces_append_separator (before after : List Char) :
    pieces (before ++ separator :: after) = pieces before ++ pieces after := by
  apply Text.splitAtEach_append_separator
  simp only [separates, Bool.not_false]

/-- Each piece is cut into humps by itself, and no case is carried over from the one before. -/
theorem rawWords_append_separator (before after : List Char) :
    rawWords (before ++ separator :: after) = rawWords before ++ rawWords after := by
  unfold rawWords
  rw [pieces_append_separator separates, List.flatMap_append]

theorem splitWords_append_separator (before after : String) :
    splitWords (before ++ String.singleton separator ++ after) =
      splitWords before ++ splitWords after := by
  have text : (before ++ String.singleton separator ++ after).toList =
      before.toList ++ separator :: after.toList := by
    simp
  unfold splitWords
  rw [text, rawWords_append_separator separates]
  simp only [List.map_append, List.filter_append]

/-- The words of a joined path are those of its parts. A part without words leaves no trace. -/
theorem splitWords_joined (path : List String) :
    splitWords (String.intercalate (String.singleton separator) path) =
      path.flatMap splitWords := by
  induction path with
  | nil => rfl
  | cons part rest ih =>
    cases rest with
    | nil => simp
    | cons next rest =>
      rw [String.intercalate_cons_cons, splitWords_append_separator separates, ih]
      rfl

theorem typeName_joined (c : Convention) (path : List String) :
    c.typeName [String.intercalate (String.singleton separator) path] = c.typeName path := by
  unfold Convention.typeName
  rw [List.flatMap_singleton, splitWords_joined separates]

end Separators

/-- The words around a character that is not alphanumeric are those before it and those behind it. So
a type is named alike for a path and for its parts in one, with any such character between them: paths
with the same words have the same name. -/
theorem splitWords_separated {separator : Char}
    (separates : Unicode.isAlphanumeric separator = false) :
    (∀ before after : String,
      splitWords (before ++ String.singleton separator ++ after) =
        splitWords before ++ splitWords after) ∧
    ∀ (c : Convention) (path : List String),
      c.typeName path = c.typeName [String.intercalate (String.singleton separator) path] ∧
      ∀ other : List String, other.flatMap splitWords = path.flatMap splitWords →
        c.typeName other = c.typeName path := by
  refine ⟨splitWords_append_separator separates, fun c path => ⟨?_, ?_⟩⟩
  · exact (typeName_joined separates c path).symm
  · intro other same
    unfold Convention.typeName
    rw [same]

/-- Side by side the two parts would be one run of capitals and small letters, cut before its last
capital. A combining accent keeps them apart, and so it does around a part without words. -/
theorem splitWords_separated_accent :
    Unicode.isAlphanumeric '\u0301' = false ∧
      splitWords ("HTTP" ++ String.singleton '\u0301' ++ "server") =
        splitWords "HTTP" ++ splitWords "server" ∧
      splitWords "HTTP" ++ splitWords "server" = ["http", "server"] ∧
      splitWords "HTTPserver" = ["htt", "pserver"] ∧
      Binding.GoPackage.naming.typeName ["HTTP", "Σ", "server"] =
        Binding.GoPackage.naming.typeName
          [String.intercalate (String.singleton '\u0301') ["HTTP", "Σ", "server"]] ∧
      Binding.GoPackage.naming.typeName ["HTTP", "server"] =
        Binding.GoPackage.naming.typeName ["HTTP", "Σ", "server"] := by
  have separates : Unicode.isAlphanumeric '\u0301' = false := by decide +kernel
  obtain ⟨parted, named⟩ := splitWords_separated separates
  obtain ⟨joined, alike⟩ := named Binding.GoPackage.naming ["HTTP", "Σ", "server"]
  refine ⟨separates, parted "HTTP" "server", ?_, ?_, joined, alike ["HTTP", "server"] ?_⟩
  · decide +kernel
  · decide +kernel
  · decide +kernel

end SchemaBindings.Naming
