import SchemaBindings.Binding.GoPackage
import SchemaBindings.Binding.JavaClasses
import SchemaBindings.Binding.RustModule
import SchemaBindings.Binding.TypeScriptModule
import SchemaBindings.Catalog.OfSchema
import SchemaBindings.Schema.Reading

/-! Rendering a schema for any of the languages. -/

namespace SchemaBindings.Binding

/-- A language, and the package that Java and Go put their output in. -/
structure Target where
  language : Language
  package : String
  deriving DecidableEq, Repr

def naming : Language → Naming.Convention
  | .java => JavaClasses.naming
  | .rust => RustModule.naming
  | .go => GoPackage.naming
  | .typescript => TypeScriptModule.naming

def Target.files (t : Target) (c : NamedCatalog) : Except Unsupported (List File) :=
  match t.language with
  | .java => JavaClasses.files t.package c
  | .rust => RustModule.files c
  | .go => GoPackage.files t.package c
  | .typescript => TypeScriptModule.files c

def Target.render (t : Target) (catalog : Catalog) : Except Unsupported Rendered := do
  let c := NamedCatalog.ofCatalog (naming t.language) catalog
  return ⟨← t.files c, Roster.ofNames c⟩

/-- Every target renders on its own: what one cannot render stops no other. -/
def render (text rootName : String) (targets : List Target) :
    Except Fault (List (Except Unsupported Rendered)) := do
  let schema ← Schema.ofText text
  return targets.map (·.render (Catalog.ofSchema schema rootName))

/-- The items of a Rust module alone. -/
def rustItems (text rootName : String) : Except Fault (Except Unsupported String) := do
  let schema ← Schema.ofText text
  return RustModule.items
    (NamedCatalog.ofCatalog RustModule.naming (Catalog.ofSchema schema rootName))

end SchemaBindings.Binding
