import SchemaBindings.Json.Value
import SchemaBindings.Unicode.Blank

/-! Schemas of JSON Type Definition (RFC 8927). Every list of entries is in increasing key order. -/

namespace SchemaBindings

inductive Primitive
  | boolean | string | timestamp | float32 | float64
  | int8 | uint8 | int16 | uint16 | int32 | uint32
  deriving DecidableEq, Repr

namespace Primitive

def all : List Primitive :=
  [.boolean, .string, .timestamp, .float32, .float64,
   .int8, .uint8, .int16, .uint16, .int32, .uint32]

def keyword : Primitive → String
  | boolean => "boolean"
  | string => "string"
  | timestamp => "timestamp"
  | float32 => "float32"
  | float64 => "float64"
  | int8 => "int8"
  | uint8 => "uint8"
  | int16 => "int16"
  | uint16 => "uint16"
  | int32 => "int32"
  | uint32 => "uint32"

def ofKeyword? (keyword : String) : Option Primitive := all.find? (·.keyword == keyword)

theorem ofKeyword?_keyword (p : Primitive) : ofKeyword? p.keyword = some p := by
  cases p <;> decide

end Primitive

/-- What a node carries beside its form. `extensions` holds every key but the two that are read
here. -/
structure Metadata where
  description : Option String
  enumDescriptions : List (String × String)
  extensions : List (String × Json)
  deriving Repr

namespace Metadata

def empty : Metadata := ⟨none, [], []⟩

/-- A blank text describes nothing. -/
def trimmed? (text : String) : Option String :=
  let text := Unicode.trim text
  if text.isEmpty then none else some text

def described (m : Metadata) : Option String := m.description.bind trimmed?

def enumDescribed (m : Metadata) (value : String) : Option String :=
  (m.enumDescriptions.lookup value).bind trimmed?

def hint? (m : Metadata) (key : String) : Option Json := m.extensions.lookup key

end Metadata

mutual
inductive Node where
  | mk (form : Form) (nullable : Bool) (metadata : Metadata)

inductive Form where
  | empty
  | ref (definition : String)
  | type (primitive : Primitive)
  | enum (values : List String)
  | elements (item : Node)
  | properties (required optional : List (String × Node)) (additional : Bool)
  | values (item : Node)
  | discriminator (tag : String) (mapping : List (String × Node))
end

namespace Node

def form : Node → Form
  | mk form _ _ => form

def nullable : Node → Bool
  | mk _ nullable _ => nullable

def metadata : Node → Metadata
  | mk _ _ metadata => metadata

/-- Whether the node is declared as a type of its own wherever it stands. -/
def isNameable (n : Node) : Bool :=
  match n.form with
  | .properties .. | .enum .. | .discriminator .. => true
  | _ => false

end Node

structure Schema where
  root : Node
  definitions : List (String × Node)

end SchemaBindings
