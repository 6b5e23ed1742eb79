import SchemaBindings.Binding.Target
import SchemaBindings.Output.Tree

/-! Writing what was rendered. Nothing is written before every target has rendered, and a target
whose files cannot all be written leaves none of them behind. -/

namespace SchemaBindings.Output

open Binding (File Rendered Roster Target)

/-- The operations on files that generating needs. The results say whether they succeeded. -/
structure Disk (m : Type → Type) where
  readText? : String → m (Option String)
  makeDirectories : String → m Bool
  write : String → String → m Bool
  remove : String → m Unit

/-- The operations on a tree in memory. -/
def Tree.disk : Disk (StateM Tree) where
  readText? path := do return (← get).readText? path
  makeDirectories path := modifyGet (fun t => (t.makeDirectories path).swap)
  write path text := modifyGet (fun t =>
    match t.write? path text.toUTF8 with
    | some t => (true, t)
    | none => (false, t))
  remove path := modify (fun t => t.remove path)

/-- A target and the directory for its files. -/
structure Order where
  target : Target
  directory : String
  deriving DecidableEq, Repr

inductive Failure
  | unsupported (fault : Unsupported)
  | io
  deriving DecidableEq, Repr

def Failure.message : Failure → String
  | unsupported fault => fault.message
  | io => "I/O error"

structure Written where
  paths : List String
  roster : Roster
  deriving DecidableEq, Repr

structure Report where
  order : Order
  outcome : Except Failure Written

/-- What stops a run before any target is looked at. -/
inductive Refusal
  | unreadable
  | invalid (fault : Fault)
  deriving DecidableEq, Repr

def Refusal.message : Refusal → String
  | unreadable => "I/O error"
  | invalid fault => fault.message

variable {m : Type → Type} [Monad m]

def removeAll (disk : Disk m) : List String → m Unit
  | [] => pure ()
  | path :: rest => do
    disk.remove path
    removeAll disk rest

/-- Writes files into a directory. When one fails, those in `written` and those after are removed
again; else all paths are given in order. -/
def writeFiles (disk : Disk m) (directory : String) (written : List String) :
    List File → m (Option (List String))
  | [] => pure (some written)
  | f :: rest => do
    let path := Path.join directory f.name
    if ← disk.write path f.contents then writeFiles disk directory (written ++ [path]) rest
    else
      removeAll disk written
      return none

def writeTarget (disk : Disk m) (directory : String) (r : Rendered) :
    m (Except Failure Written) := do
  if ← disk.makeDirectories directory then
    match ← writeFiles disk directory [] r.files with
    | some paths => return .ok ⟨paths, r.roster⟩
    | none => return .error .io
  else return .error .io

def report (disk : Disk m) (order : Order) : Except Unsupported Rendered → m Report
  | .error fault => pure ⟨order, .error (.unsupported fault)⟩
  | .ok r => do return ⟨order, ← writeTarget disk order.directory r⟩

def reportAll (disk : Disk m) : List (Order × Except Unsupported Rendered) → m (List Report)
  | [] => pure []
  | (order, result) :: rest => do
    let first ← report disk order result
    return first :: (← reportAll disk rest)

/-- Renders every target and then writes each one that rendered. -/
def generate (disk : Disk m) (text rootName : String) (orders : List Order) :
    m (Except Fault (List Report)) :=
  match Binding.render text rootName (orders.map (·.target)) with
  | .error fault => pure (.error fault)
  | .ok results => do return .ok (← reportAll disk (orders.zip results))

def generateFile (disk : Disk m) (path rootName : String) (orders : List Order) :
    m (Except Refusal (List Report)) := do
  match ← disk.readText? path with
  | none => return .error .unreadable
  | some text =>
    match ← generate disk text rootName orders with
    | .error fault => return .error (.invalid fault)
    | .ok reports => return .ok reports

/-- The text of a Rust module for a writer that has room for so many bytes, or for any number. The
module is written at once, so what does not fit fails as a whole. -/
def writeRustModule (text rootName : String) (room : Option Nat) :
    Except Fault (Except Failure String) := do
  let schema ← Schema.ofText text
  let catalog := Catalog.ofSchema schema rootName
  return match (Target.mk .rust "").render catalog with
    | .error fault => .error (.unsupported fault)
    | .ok r =>
      let module := String.join (r.files.map (·.contents))
      if room.all (module.utf8ByteSize ≤ ·) then .ok module else .error .io

end SchemaBindings.Output
