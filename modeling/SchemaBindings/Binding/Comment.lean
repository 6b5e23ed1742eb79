import SchemaBindings.Text.Wrap
import SchemaBindings.Unicode.Blank

/-! Descriptions as comments, of 80 columns where the indentation leaves at least 20. -/

namespace SchemaBindings.Binding

def columnsAfter (lead : Nat) : Nat := max 20 (80 - lead)

/-- A blank line of the text is one empty line; any other one is wrapped. -/
def paragraphLines (limit : Nat) (paragraph : List Char) : List (List Char) :=
  if paragraph.all Unicode.isBlank then [[]]
  else Text.wrap limit (Unicode.trimEnd paragraph)

def descriptionLines (description : String) (lead : Nat) : List String :=
  ((Text.lines (Unicode.trim description).toList).flatMap
    (paragraphLines (columnsAfter lead))).map String.ofList

/-- One line of a comment. Nothing that starts a line trails behind an empty one. -/
def commentLine (lead line : String) : String :=
  if line.isEmpty then String.ofList (Unicode.trimEnd lead.toList) else lead ++ line

/-- A description in which every line starts with `lead`. -/
def lineComment (lead : String) : Option String → List String
  | none => []
  | some description =>
    (descriptionLines description lead.utf8ByteSize).map (commentLine lead)

/-- Writes something else wherever the text would close a block comment. -/
def replaceClose (replacement : List Char) : List Char → List Char
  | [] => []
  | '*' :: '/' :: rest => replacement ++ replaceClose replacement rest
  | c :: rest => c :: replaceClose replacement rest

def blockComment (indent close : String) : Option String → List String
  | none => []
  | some description =>
    let text := String.ofList (replaceClose close.toList description.toList)
    (indent ++ "/**") :: lineComment (indent ++ " * ") (some text) ++ [indent ++ " */"]

end SchemaBindings.Binding
