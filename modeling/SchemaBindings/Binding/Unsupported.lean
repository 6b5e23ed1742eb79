import SchemaBindings.Json.Pointer
import SchemaBindings.Schema.Fault
import SchemaBindings.Text.Literal

/-! What one language cannot render of a schema that is valid. -/

namespace SchemaBindings

inductive Language
  | java | rust | go | typescript
  deriving DecidableEq, Repr

/-- The name of a language in requests and reports. -/
def Language.id : Language → String
  | java => "java-jackson"
  | rust => "rust"
  | go => "go"
  | typescript => "typescript"

inductive Construct
  | hintNotString (key : String)
  | hintWithoutItems (key : String)
  | notDerivePath (entry : String)
  | notTagName (name : String)
  | notEmbeddable (type : String)
  | noTagMember
  | variantOutsideUnion
  deriving DecidableEq, Repr

def Construct.message : Construct → String
  | hintNotString key => quoted key ++ " must be a string"
  | hintWithoutItems key => quoted key ++ " on a node that is not `elements` or `values`"
  | notDerivePath entry => quoted entry ++ " is not a derive macro path"
  | notTagName name => "property name " ++ Text.shown name ++ " cannot appear in a struct tag"
  | notEmbeddable type => "variant type " ++ quoted type ++ " cannot be embedded"
  | noTagMember => "discriminator without a tag member"
  | variantOutsideUnion => "union variant outside a discriminator"

structure Unsupported where
  language : Language
  path : Pointer
  construct : Construct
  deriving DecidableEq, Repr

def Unsupported.message (u : Unsupported) : String :=
  u.language.id ++ " cannot render schema node at #" ++ u.path.text ++ ": " ++
    u.construct.message

end SchemaBindings
