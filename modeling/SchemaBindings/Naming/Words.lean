import SchemaBindings.Unicode.Alphanumeric
import SchemaBindings.Unicode.LetterCase
import SchemaBindings.Text.Cut

/-! The words of a raw name. A name is cut at every character that is not alphanumeric, and each
piece into humps at its changes of case: `fooBar` is two words, and so is `HTTPServer`. -/

namespace SchemaBindings.Naming

open Text (extend flatten_extend)

inductive LetterCase
  | lower | upper
  deriving DecidableEq, Repr

/-- The case of the last cased character of a word, where `before` is the case up to `c`. -/
def caseAfter (before : Option LetterCase) (c : Char) : Option LetterCase :=
  if Unicode.isLowercase c then some .lower
  else if Unicode.isUppercase c then some .upper
  else before

/-- Cuts a piece at its changes of case. The first word continues one whose case is `before`. -/
def humps (before : Option LetterCase) : List Char → List (List Char)
  | [] => []
  | [c] => [[c]]
  | c :: next :: rest =>
    if caseAfter before c = some .lower ∧ Unicode.isUppercase next then
      [c] :: humps none (next :: rest)
    else if before = some .upper ∧ Unicode.isUppercase c ∧ Unicode.isLowercase next then
      [] :: extend c (humps none (next :: rest))
    else extend c (humps (caseAfter before c) (next :: rest))

/-- The maximal runs of alphanumeric characters, with an empty one wherever two separators meet or
one stands at an end. -/
def pieces (text : List Char) : List (List Char) :=
  Text.splitAtEach (fun c => !Unicode.isAlphanumeric c) text

def rawWords (text : List Char) : List (List Char) := (pieces text).flatMap (humps none)

/-- A capital sigma at the end of a word has its own lower case. -/
def lowerWord : List Char → List Char
  | [] => []
  | ['Σ'] => ['ς']
  | c :: rest => Unicode.toLower c ++ lowerWord rest

def titleWord : List Char → List Char
  | [] => []
  | c :: rest => Unicode.toUpper c ++ lowerWord rest

/-- The words of a name in lower case, less every character outside ASCII. -/
def splitWords (name : String) : List String :=
  (((rawWords name.toList).map (fun word => (lowerWord word).filter Char.isAlphanum)).filter
    (fun word => !word.isEmpty)).map String.ofList

/-- Every word of a text with its first character in upper case, and nothing between them. -/
def titleCase (text : String) : String :=
  String.ofList ((rawWords text.toList).flatMap titleWord)

/-- Cutting into humps loses nothing. -/
theorem flatten_humps (before : Option LetterCase) (cs : List Char) :
    (humps before cs).flatten = cs := by
  fun_induction humps before cs with
  | case1 => rfl
  | case2 => rfl
  | case3 before c next rest _ ih => simp [ih]
  | case4 before c next rest _ _ ih => simp [flatten_extend, ih]
  | case5 before c next rest _ _ ih => simp [flatten_extend, ih]

end SchemaBindings.Naming
