import SchemaBindings.Naming.Words

/-! How words are joined into an identifier. -/

namespace SchemaBindings.Naming

inductive Capitals
  | lower
  /-- Title case, in which an initialism is written in capitals. -/
  | title
  | upper
  deriving DecidableEq, Repr

structure CaseStyle where
  first : Capitals
  rest : Capitals
  delimiter : String
  deriving DecidableEq, Repr

def asciiLower (text : String) : String := text.map Char.toLower

def asciiUpper (text : String) : String := text.map Char.toUpper

def isInitialism (initialisms : List String) (word : String) : Bool :=
  initialisms.any (fun initialism => asciiLower initialism == asciiLower word)

def capitalize (capitals : Capitals) (initialisms : List String) (word : String) : String :=
  match capitals with
  | .lower => asciiLower word
  | .upper => asciiUpper word
  | .title => if isInitialism initialisms word then asciiUpper word else titleCase word

namespace CaseStyle

def pascal : CaseStyle := ⟨.title, .title, ""⟩

def camel : CaseStyle := ⟨.lower, .title, ""⟩

def snake : CaseStyle := ⟨.lower, .lower, "_"⟩

def screamingSnake : CaseStyle := ⟨.upper, .upper, "_"⟩

def cased (style : CaseStyle) (initialisms : List String) : List String → List String
  | [] => []
  | word :: rest =>
    capitalize style.first initialisms word :: rest.map (capitalize style.rest initialisms)

def apply (style : CaseStyle) (initialisms : List String) (words : List String) : String :=
  String.intercalate style.delimiter (style.cased initialisms words)

end CaseStyle

end SchemaBindings.Naming
