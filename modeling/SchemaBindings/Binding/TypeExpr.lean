import SchemaBindings.Binding.Hint
import SchemaBindings.Naming.Names

/-! A type as one language writes it, its hints read and its names known. What is left to the
language is the spelling. -/

namespace SchemaBindings.Binding

/-- How a declaration is referred to. -/
inductive Reference
  | name (text : String)
  /-- The text of a type hint, in place of a declaration that is not written. -/
  | replacement (text : String)
  deriving DecidableEq, Repr

def Reference.text : Reference → String
  | .name text => text
  | .replacement text => text

inductive TypeExpr
  | verbatim (text : String)
  | anything
  | primitive (primitive : Primitive) (nullable : Bool)
  | elements (container : Option String) (item : TypeExpr) (nullable : Bool)
  | values (container : Option String) (item : TypeExpr) (nullable : Bool)
  | declared (id : Nat) (reference : Reference) (nullable : Bool)
  deriving Repr

/-- A catalog with the names that one language gives its declarations. -/
structure NamedCatalog where
  catalog : Catalog
  names : List Naming.Names

namespace NamedCatalog

def ofCatalog (convention : Naming.Convention) (catalog : Catalog) : NamedCatalog :=
  ⟨catalog, Naming.resolve convention catalog⟩

def typeName (c : NamedCatalog) (id : Nat) : String := (c.names[id]?.map (·.type)).getD ""

/-- The text that stands for a declaration wherever it is used. -/
def reference (c : NamedCatalog) (keys : HintKeys) (id : Nat) : Except Unsupported Reference :=
  match c.catalog.declaration? id with
  | none => .ok (.name (c.typeName id))
  | some d => do
    match ← keys.type? d.metadata d.pointer with
    | some text => return .replacement text
    | none => return .name (c.typeName id)

end NamedCatalog

namespace TypeExpr

def ofUse (keys : HintKeys) (c : NamedCatalog) : TypeUse → Except Unsupported TypeExpr
  | .mk kind nullable metadata here => do
    if let some text ← keys.type? metadata here then return .verbatim text
    match kind with
    | .anything =>
      let _ ← keys.container? false metadata here
      return .anything
    | .primitive p =>
      let _ ← keys.container? false metadata here
      return .primitive p nullable
    | .elements item =>
      let container ← keys.container? true metadata here
      return .elements container (← ofUse keys c item) nullable
    | .values item =>
      let container ← keys.container? true metadata here
      return .values container (← ofUse keys c item) nullable
    | .declared id =>
      let _ ← keys.container? false metadata here
      return .declared id (← c.reference keys id) nullable

/-- Whether the test holds of the type or of the items inside it. -/
def anyLevel (test : TypeExpr → Bool) : TypeExpr → Bool
  | .elements container item nullable =>
    test (.elements container item nullable) || item.anyLevel test
  | .values container item nullable =>
    test (.values container item nullable) || item.anyLevel test
  | type => test type

def usesPrimitive (p : Primitive) (type : TypeExpr) : Bool :=
  type.anyLevel (fun
    | .primitive q _ => q == p
    | _ => false)

end TypeExpr

end SchemaBindings.Binding
