import SchemaBindings.Json.Pointer
import SchemaBindings.Schema.Basic

/-! The declarations that a schema calls for. A declaration is known by its number, so that
recursive schemas stay finite: a use of a type names the declaration and does not hold it. -/

namespace SchemaBindings

mutual
/-- A type at one position of the schema, with the metadata of the node that stands there. -/
inductive TypeUse where
  | mk (kind : TypeKind) (nullable : Bool) (metadata : Metadata) (pointer : Pointer)

inductive TypeKind where
  | anything
  | primitive (primitive : Primitive)
  | elements (item : TypeUse)
  | values (item : TypeUse)
  | declared (id : Nat)
end

namespace TypeUse

def kind : TypeUse → TypeKind
  | mk kind _ _ _ => kind

def nullable : TypeUse → Bool
  | mk _ nullable _ _ => nullable

def metadata : TypeUse → Metadata
  | mk _ _ metadata _ => metadata

def pointer : TypeUse → Pointer
  | mk _ _ _ pointer => pointer

/-- The use itself and the items inside it, from the outside in. -/
def levels : TypeUse → List TypeUse
  | mk (.elements item) nullable metadata pointer =>
    mk (.elements item) nullable metadata pointer :: item.levels
  | mk (.values item) nullable metadata pointer =>
    mk (.values item) nullable metadata pointer :: item.levels
  | use => [use]

end TypeUse

structure Member where
  wireName : String
  type : TypeUse
  required : Bool

def Member.described (m : Member) : Option String := m.type.metadata.described

structure EnumValue where
  value : String
  described : Option String
  deriving DecidableEq, Repr

inductive Shape
  | record (members : List Member) (additional : Bool)
  | enumeration (values : List EnumValue)
  /-- The variants of a union are declarations of their own, in the order of their tag values. -/
  | union (tag : String) (variants : List Nat)
  | variant (parent : Nat) (tagValue : String) (members : List Member) (additional : Bool)
  /-- Gives a name to a type that needs none. -/
  | wrapper (inner : TypeUse)

def Shape.members : Shape → List Member
  | .record members _ => members
  | .variant _ _ members _ => members
  | _ => []

structure Declaration where
  id : Nat
  /-- The wire names on the way to the declaration. -/
  path : List String
  shape : Shape
  metadata : Metadata
  nullable : Bool
  /-- The declaration that this one is nested in. -/
  owner : Option Nat
  pointer : Pointer

/-- The root has number 0, the definitions follow by name, and then what is nested in them. -/
structure Catalog where
  declarations : List Declaration
  named : List (String × Nat)

namespace Catalog

def declaration? (c : Catalog) (id : Nat) : Option Declaration := c.declarations[id]?

def shape? (c : Catalog) (id : Nat) : Option Shape := (c.declaration? id).map Declaration.shape

def size (c : Catalog) : Nat := c.declarations.length

end Catalog

end SchemaBindings
