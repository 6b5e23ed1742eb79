import SchemaBindings.Text.Cut

/-! Paths as texts: the way they lead, and joining a file name to a directory. -/

namespace SchemaBindings.Output

/-- One step on the way that a path leads. -/
inductive Step
  | up
  | down (name : String)
  deriving DecidableEq, Repr

namespace Path

def segments (path : String) : List String :=
  (Text.splitAtEach (· == '/') path.toList).map String.ofList

/-- An empty segment and a single dot lead nowhere. -/
def steps (path : List String) : List Step :=
  path.filterMap (fun
    | "" => none
    | "." => none
    | ".." => some .up
    | name => some (.down name))

/-- A path to a file ends in a name; before it is the way to its directory. -/
def file? (path : String) : Option (List Step × String) :=
  let parts := segments path
  match steps (parts.getLast?.toList) with
  | [.down name] => some (steps parts.dropLast, name)
  | _ => none

/-- Whether the last segment, slashes at the end apart, is a single dot. -/
def endsInDot (path : String) : Bool :=
  ((segments path).filter (fun segment => !segment.isEmpty)).getLast? == some "."

def isAbsolute (path : String) : Bool := "/".isPrefixOf path

/-- A name behind a directory. No slash is added to an empty path or to one that ends in a slash,
and an absolute name stands for itself. -/
def join (directory name : String) : String :=
  if isAbsolute name || directory.isEmpty then name
  else if directory.toList.getLast? = some '/' then directory ++ name
  else directory ++ "/" ++ name

/-- The last name on the way, unless the way ends with a step up. -/
def lastName? (path : String) : Option String :=
  match (steps (segments path)).getLast? with
  | some (.down name) => some name
  | _ => none

/-- A name up to its last dot; a dot at the start does not count. -/
def stem (name : String) : String :=
  let parts := Text.splitAtEach (· == '.') name.toList
  let front := List.intercalate ['.'] parts.dropLast
  if front.isEmpty then name else String.ofList front

end Path

end SchemaBindings.Output
