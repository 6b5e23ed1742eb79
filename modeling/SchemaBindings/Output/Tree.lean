import SchemaBindings.Output.Path
import SchemaBindings.Keyed

/-! A tree of directories and files below one directory, and what reading and writing do to it. An
operation that fails gives `none`, or leaves behind the directories it has made so far. -/

namespace SchemaBindings.Output

inductive Entry
  | directory
  | file (contents : ByteArray)

/-- The entries by their places. A place lists the names on the way from the top, which is always a
directory. -/
structure Tree where
  entries : List (List String × Entry)

namespace Tree

def empty : Tree := ⟨[]⟩

def entry? (t : Tree) (place : List String) : Option Entry :=
  if place.isEmpty then some .directory else t.entries.lookup place

def isDirectory (t : Tree) (place : List String) : Bool :=
  match t.entry? place with
  | some .directory => true
  | _ => false

def erase (t : Tree) (place : List String) : Tree := ⟨t.entries.filter (fun e => e.1 != place)⟩

def put (t : Tree) (place : List String) (entry : Entry) : Tree :=
  ⟨(place, entry) :: (t.erase place).entries⟩

/-- The bytes that a name can have. -/
def nameLimit : Nat := 255

/-- The bytes that a path can have. -/
def pathLimit : Nat := 4095

/-- A path that leads anywhere holds no null character and stays below the top. -/
def isUsable (path : String) : Bool :=
  !path.toList.contains '\x00' && path.utf8ByteSize ≤ pathLimit && !Path.isAbsolute path

/-- The directory that steps lead to. -/
def walk (t : Tree) (place : List String) : List Step → Option (List String)
  | [] => some place
  | .up :: rest => if place.isEmpty then none else t.walk place.dropLast rest
  | .down name :: rest =>
    if t.isDirectory (place ++ [name]) then t.walk (place ++ [name]) rest else none

/-- Makes the directories that are missing on a way; the flag says whether the way is open. -/
def makeWay (t : Tree) (place : List String) : List Step → Tree × Bool
  | [] => (t, true)
  | .up :: rest => if place.isEmpty then (t, false) else t.makeWay place.dropLast rest
  | .down name :: rest =>
    let next := place ++ [name]
    match t.entry? next with
    | some .directory => t.makeWay next rest
    | some (.file _) => (t, false)
    | none =>
      if name.utf8ByteSize ≤ nameLimit then (t.put next .directory).makeWay next rest
      else (t, false)

/-- Makes a directory and those on the way to it. A path that ends in a dot names a directory that
is there already, so only the way to it is made. -/
def makeDirectories (t : Tree) (path : String) : Tree × Bool :=
  let steps := Path.steps (Path.segments path)
  if !isUsable path then (t, false)
  else if Path.endsInDot path then
    let (t, isOpen) := t.makeWay [] steps.dropLast
    (t, isOpen && (t.walk [] steps).isSome)
  else t.makeWay [] steps

/-- The place of a file, whose directory must exist. -/
def place? (t : Tree) (path : String) : Option (List String) := do
  let (way, name) ← if isUsable path then Path.file? path else none
  return (← t.walk [] way) ++ [name]

def read? (t : Tree) (path : String) : Option ByteArray := do
  match t.entry? (← t.place? path) with
  | some (.file contents) => some contents
  | _ => none

/-- A text file is one whose bytes are UTF-8. -/
def readText? (t : Tree) (path : String) : Option String :=
  (t.read? path).bind String.fromUTF8?

/-- Writes a file anew or over an old one, but not over a directory. -/
def write? (t : Tree) (path : String) (contents : ByteArray) : Option Tree := do
  let place ← t.place? path
  if t.isDirectory place then none
  else if (place.getLast?.getD "").utf8ByteSize ≤ nameLimit then
    some (t.put place (.file contents))
  else none

/-- Removes a file; what is no file stays. -/
def remove (t : Tree) (path : String) : Tree :=
  match t.place? path with
  | some place => if t.isDirectory place then t else t.erase place
  | none => t

/-- A file with the directories it needs. -/
def add (t : Tree) (path : String) (contents : ByteArray) : Tree :=
  match if isUsable path then Path.file? path else none with
  | some (way, _) =>
    let t := (t.makeWay [] way).1
    (t.write? path contents).getD t
  | none => t

/-- Every entry under its path, in the order of the paths; a directory has no contents. -/
def listing (t : Tree) : List (String × Option ByteArray) :=
  Keyed.ofList (t.entries.map (fun (place, entry) =>
    (String.intercalate "/" place, match entry with
      | .directory => none
      | .file contents => some contents)))

end Tree

end SchemaBindings.Output
