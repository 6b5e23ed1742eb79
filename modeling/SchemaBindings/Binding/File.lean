import SchemaBindings.Binding.Draft
import SchemaBindings.Text.Cut

/-! What rendering gives: files by name, and the type names of the schema's named parts. -/

namespace SchemaBindings.Binding

/-- The first line of every file, inside a comment. -/
def notice : String := "Generated by jtd-codegen. Do not edit manually."

structure File where
  name : String
  contents : String
  deriving DecidableEq, Repr

structure Roster where
  root : String
  /-- The type of each definition, by the name of the definition. -/
  definitions : List (String × String)
  deriving DecidableEq, Repr

def Roster.ofNames (c : NamedCatalog) : Roster :=
  ⟨c.typeName 0, c.catalog.named.map (fun (name, id) => (name, c.typeName id))⟩

structure Rendered where
  files : List File
  roster : Roster
  deriving DecidableEq, Repr

end SchemaBindings.Binding
