import SchemaBindings.Json.Pointer

/-! Why a document is not a schema. A fault is a cause and the place it was found at; the wording
of all causes is in `Cause.message`. -/

namespace SchemaBindings

/-- What the value of a keyword has to be. -/
inductive Expected
  | object | string | boolean | strings | stringObject
  deriving DecidableEq, Repr

def Expected.phrase : Expected → String
  | object => "an object"
  | string => "a string"
  | boolean => "a boolean"
  | strings => "an array of strings"
  | stringObject => "an object of strings"

/-- A group of keywords that stand for one form. -/
inductive FormGroup
  | ref | type | enum | elements | properties | values | discriminator
  deriving DecidableEq, Repr

namespace FormGroup

def all : List FormGroup := [ref, type, enum, elements, properties, values, discriminator]

def name : FormGroup → String
  | ref => "ref"
  | type => "type"
  | enum => "enum"
  | elements => "elements"
  | properties => "properties"
  | values => "values"
  | discriminator => "discriminator"

def keywords : FormGroup → List String
  | properties => ["properties", "optionalProperties", "additionalProperties"]
  | discriminator => ["discriminator", "mapping"]
  | group => [group.name]

end FormGroup

inductive Cause
  | notJson
  | notAnObject
  | unknownKeyword (keyword : String)
  | nestedDefinitions
  | wrongType (keyword : String) (expected : Expected)
  | ambiguousForm (groups : List FormGroup)
  | incompleteForm (keyword requires : String)
  | unknownType (name : String)
  | emptyEnum
  | duplicateEnumValue (value : String)
  | overlappingProperties (name : String)
  | emptyMapping
  | mappingNotProperties (tagValue : String)
  | nullableMapping (tagValue : String)
  | mappingRedefinesTag (tagValue property : String)
  | unresolvedRef (definition : String)
  | cyclicRef (definition : String)
  deriving DecidableEq, Repr

def quoted (text : String) : String := "`" ++ text ++ "`"

def Cause.message : Cause → String
  | notJson => "document is not valid JSON"
  | notAnObject => "schema must be a JSON object"
  | unknownKeyword keyword => "unknown keyword " ++ quoted keyword
  | nestedDefinitions => "`definitions` is only allowed on the root schema"
  | wrongType keyword expected => quoted keyword ++ " must be " ++ expected.phrase
  | ambiguousForm groups =>
    "keywords from more than one form are present: " ++
      String.intercalate ", " (groups.map FormGroup.name)
  | incompleteForm keyword requires => quoted keyword ++ " requires " ++ quoted requires
  | unknownType name => "unknown type " ++ quoted name
  | emptyEnum => "`enum` must contain at least one value"
  | duplicateEnumValue value => "duplicate enum value " ++ quoted value
  | overlappingProperties name => "property " ++ quoted name ++ " is both required and optional"
  | emptyMapping => "`mapping` must contain at least one entry"
  | mappingNotProperties tagValue =>
    "mapping entry " ++ quoted tagValue ++ " must be of the properties form"
  | nullableMapping tagValue => "mapping entry " ++ quoted tagValue ++ " must not be nullable"
  | mappingRedefinesTag tagValue property =>
    "mapping entry " ++ quoted tagValue ++ " redefines discriminator property " ++ quoted property
  | unresolvedRef definition => "`ref` to undefined definition " ++ quoted definition
  | cyclicRef definition =>
    "definition " ++ quoted definition ++ " only ever refers to itself through `ref`"

structure Fault where
  cause : Cause
  path : Pointer
  deriving DecidableEq, Repr

def Fault.message (f : Fault) : String :=
  "invalid schema at #" ++ f.path.text ++ ": " ++ f.cause.message

end SchemaBindings
