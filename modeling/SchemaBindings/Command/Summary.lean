import SchemaBindings.Command.Options
import SchemaBindings.Output.Generate

/-! What a run prints about its targets: the types it made to the output, what failed to the error
output. -/

namespace SchemaBindings.Command

open Binding (Roster)
open Output (Report Failure Written)

/-- Texts for the output and for the error output. -/
structure Printed where
  out : String
  err : String
  deriving DecidableEq, Repr

def Printed.append (a b : Printed) : Printed := ⟨a.out ++ b.out, a.err ++ b.err⟩

def Printed.join (parts : List Printed) : Printed := parts.foldr Printed.append ⟨"", ""⟩

def targetId (r : Report) : String := r.order.target.language.id

def prettyLines (r : Report) (w : Written) : List String :=
  ["Generated " ++ targetId r ++ " code in: " ++ r.order.directory,
   "\tRoot schema converted into type: " ++ w.roster.root] ++
    w.roster.definitions.map (fun (name, type) =>
      "\tDefinition " ++ Text.shown name ++ " converted into type: " ++ type)

def pretty (r : Report) : Printed :=
  match r.outcome with
  | .ok w => ⟨Text.unlines (prettyLines r w), ""⟩
  | .error failure =>
    ⟨"", Text.unlines ["Failed " ++ targetId r ++ ": " ++ failure.message]⟩

def minimalLines (r : Report) (w : Written) : List String :=
  (targetId r ++ ": root: " ++ w.roster.root) ::
    w.roster.definitions.map (fun (name, type) =>
      targetId r ++ ": definition: " ++ name ++ ": " ++ type)

def minimal (r : Report) : Printed :=
  match r.outcome with
  | .ok w => ⟨Text.unlines (minimalLines r w), ""⟩
  | .error failure => ⟨"", Text.unlines [targetId r ++ ": error: " ++ failure.message]⟩

/-- A JSON object whose values are written already. -/
def objectText (members : List (String × String)) : String :=
  "\x7b" ++ String.intercalate "," (members.map (fun (key, value) =>
    Text.jsonString key ++ ":" ++ value)) ++ "\x7d"

def entryText (r : Report) (w : Written) : String :=
  objectText
    [("out_dir", Text.jsonString r.order.directory),
     ("root_name", Text.jsonString w.roster.root),
     ("definition_names",
       objectText (w.roster.definitions.map (fun (name, type) => (name, Text.jsonString type))))]

/-- The targets that were written, by name; a target given twice shows once. -/
def json (reports : List Report) : Printed :=
  let entries := reports.filterMap (fun r =>
    match r.outcome with
    | .ok w => some (targetId r, entryText r w)
    | .error _ => none)
  ⟨Text.unlines [objectText (Keyed.ofList entries)], ""⟩

def summary (format : Format) (reports : List Report) : Printed :=
  match format with
  | .pretty => Printed.join (reports.map pretty)
  | .minimal => Printed.join (reports.map minimal)
  | .json => json reports

end SchemaBindings.Command
