/-! Cutting a list into parts. A function that cuts gives first the rest of the part that is being
read, so that each step either adds to that part or starts a new one. -/

namespace SchemaBindings.Text

/-- Adds an item in front of the first part. -/
def extend {α : Type} (a : α) : List (List α) → List (List α)
  | [] => [[a]]
  | part :: rest => (a :: part) :: rest

theorem flatten_extend {α : Type} (a : α) (parts : List (List α)) :
    (extend a parts).flatten = a :: parts.flatten := by
  cases parts <;> rfl

/-- The parts between separators, one more than there are separators. -/
def splitAtEach {α : Type} (isSeparator : α → Bool) : List α → List (List α)
  | [] => [[]]
  | a :: rest =>
    if isSeparator a then [] :: splitAtEach isSeparator rest
    else extend a (splitAtEach isSeparator rest)

/-- The lines of a text. A line ends with a line feed, or with a carriage return and a line feed;
the last one may also end with the text. -/
def endLines : List (List Char) → List (List Char)
  | [] => []
  | [last] => if last.isEmpty then [] else [last]
  | line :: rest =>
    (if line.getLast? = some '\r' then line.dropLast else line) :: endLines rest

def lines (text : List Char) : List (List Char) := endLines (splitAtEach (· == '\n') text)

/-- Lines as one text, each ended by a line feed. -/
def unlines (ls : List String) : String := String.join (ls.map (· ++ "\n"))

end SchemaBindings.Text
