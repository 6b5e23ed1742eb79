import SchemaBindings.Command.Summary

/-! A run of the command line. -/

namespace SchemaBindings.Command

open Output (Disk Order)

/-- Why options do not make a run. -/
inductive SetupFault
  | needs (setting other : Setting)
  | noTargets
  deriving DecidableEq, Repr

def SetupFault.message : SetupFault → String
  | needs setting other => setting.flag ++ " requires " ++ other.flag
  | noTargets =>
    "no targets requested; pass at least one of " ++ String.intercalate ", "
      ([Setting.javaOut, .rustOut, .goOut, .typescriptOut].map Setting.flag)

/-- A target that is asked for by its directory, with the package that it may need. -/
def order (o : Options) (language : Language) (directory : Setting)
    (package : Option Setting) : Except SetupFault (List Order) :=
  match o.value? directory, package with
  | none, _ => .ok []
  | some path, none => .ok [⟨⟨language, ""⟩, path⟩]
  | some path, some setting =>
    match o.value? setting with
    | some name => .ok [⟨⟨language, name⟩, path⟩]
    | none => .error (.needs directory setting)

/-- The targets in a fixed order, at least one. -/
def orders (o : Options) : Except SetupFault (List Order) := do
  let java ← order o .java .javaOut (some .javaPackage)
  let rust ← order o .rust .rustOut none
  let go ← order o .go .goOut (some .goPackage)
  let typescript ← order o .typescript .typescriptOut none
  let all := java ++ rust ++ go ++ typescript
  if all.isEmpty then .error .noTargets else return all

/-- Takes an ending off a text as often as it is there; both are given from the back. -/
def dropEnding (ending : List Char) (text : List Char) : List Char :=
  if _ : ending ≠ [] ∧ ending.isPrefixOf text ∧ ending.length ≤ text.length then
    dropEnding ending (text.drop ending.length)
  else text
termination_by text.length
decreasing_by
  have : 0 < ending.length := List.length_pos_iff.2 (by simp_all)
  simp only [List.length_drop]
  omega

/-- The root takes its name from the file, less the endings that mark a schema. -/
def rootNameOf (input : String) : String :=
  match Output.Path.lastName? input with
  | none => ""
  | some name =>
    String.ofList
      (dropEnding ".jtd".toList.reverse (Output.Path.stem name).toList.reverse).reverse

structure Outcome where
  code : Nat
  printed : Printed
  deriving DecidableEq, Repr

def refuse (message : String) : Outcome := ⟨1, "", Text.unlines ["Error: " ++ message]⟩

def versionLine : String := "jtd-codegen 0.1.0"

def usage : List String :=
  ["Usage: jtd-codegen [OPTIONS] <INPUT>",
   "",
   "Options:",
   "  --root-name <NAME>                 Name of the root type",
   "  --java-jackson-out <DIR>           Output directory for Java",
   "  --java-jackson-package <PACKAGE>   Java package",
   "  --rust-out <DIR>                   Output directory for Rust",
   "  --go-out <DIR>                     Output directory for Go",
   "  --go-package <PACKAGE>             Go package",
   "  --typescript-out <DIR>             Output directory for TypeScript",
   "  --log-format <FORMAT>              Format of the summary: pretty, minimal or json",
   "  -v, --verbose                      Say more",
   "  -h, --help                         Print this text",
   "  -V, --version                      Print the version"]

variable {m : Type → Type} [Monad m]

/-- Runs with options that ask for targets. The code is 0 when every target was written. -/
def runOptions (disk : Disk m) (input : String) (o : Options) : m Outcome :=
  match orders o with
  | .error fault => pure (refuse fault.message)
  | .ok orders => do
    let rootName := (o.value? .rootName).getD (rootNameOf input)
    match ← Output.generateFile disk input rootName orders with
    | .error refusal =>
      return refuse ("failed to generate code from " ++ input ++ ": " ++ refusal.message)
    | .ok reports =>
      return ⟨if reports.all (·.outcome.isOk) then 0 else 1, summary o.format reports⟩

def run (disk : Disk m) (args : List String) : m Outcome :=
  match Request.ofArguments args with
  | .run input o => runOptions disk input o
  | .version => pure ⟨0, Text.unlines [versionLine], ""⟩
  | .help => pure ⟨0, Text.unlines usage, ""⟩
  | .misuse => pure ⟨2, "", Text.unlines usage⟩

end SchemaBindings.Command
