import SchemaBindings.Binding.Comment
import SchemaBindings.Binding.File

/-! Java: classes annotated for Jackson, one to a file. Java has no unsigned numbers, so a package
that needs them gets small classes of its own. -/

namespace SchemaBindings.Binding.JavaClasses

def naming : Naming.Convention where
  typeCase := .pascal
  memberCase := .camel
  constantCase := .screamingSnake
  keywords :=
    ["abstract", "assert", "boolean", "break", "byte", "case", "catch", "char", "class", "const",
     "continue", "default", "do", "double", "else", "enum", "extends", "false", "final",
     "finally", "float", "for", "goto", "if", "implements", "import", "instanceof", "int",
     "interface", "long", "native", "new", "null", "package", "private", "protected", "public",
     "record", "return", "short", "static", "strictfp", "super", "switch", "synchronized", "this",
     "throw", "throws", "transient", "true", "try", "var", "void", "volatile", "while", "yield"]
  initialisms := []
  constantScope := .perEnum
  reservedTypeNames :=
    ["Boolean", "Byte", "Double", "Float", "Integer", "JsonCreator", "JsonIgnoreProperties",
     "JsonInclude", "JsonProperty", "JsonSerialize", "JsonSubTypes", "JsonTypeInfo", "JsonValue",
     "List", "Map", "Object", "OffsetDateTime", "Override", "Short", "String", "UnsignedByte",
     "UnsignedInteger", "UnsignedShort"]

def hints : HintKeys := ⟨.java, "javaJacksonType", some "javaJacksonContainer"⟩

def rules : Rules Unit Unit where
  keys := hints
  declaration _ _ _ := .ok ()
  member _ := .ok ()
  variant _ _ := .ok ()

/-- The width of an unsigned number. -/
inductive Unsigned
  | byte | short | integer
  deriving DecidableEq, Repr

namespace Unsigned

def all : List Unsigned := [byte, short, integer]

def className : Unsigned → String
  | byte => "UnsignedByte"
  | short => "UnsignedShort"
  | integer => "UnsignedInteger"

/-- The signed type that holds the bits. -/
def signed : Unsigned → String
  | byte => "byte"
  | short => "short"
  | integer => "int"

def boxed : Unsigned → String
  | byte => "Byte"
  | short => "Short"
  | integer => "Integer"

def primitive : Unsigned → Primitive
  | byte => .uint8
  | short => .uint16
  | integer => .uint32

end Unsigned

def primitiveText : Primitive → String
  | .boolean => "Boolean"
  | .string => "String"
  | .timestamp => "OffsetDateTime"
  | .float32 => "Float"
  | .float64 => "Double"
  | .int8 => "Byte"
  | .int16 => "Short"
  | .int32 => "Integer"
  | .uint8 => Unsigned.byte.className
  | .uint16 => Unsigned.short.className
  | .uint32 => Unsigned.integer.className

/-- The spelling of a type. Every type is a class, so null needs no mark. -/
def typeText : TypeExpr → String
  | .verbatim text => text
  | .anything => "Object"
  | .primitive p _ => primitiveText p
  | .elements container item _ => container.getD "List" ++ "<" ++ typeText item ++ ">"
  | .values container item _ => container.getD "Map" ++ "<String, " ++ typeText item ++ ">"
  | .declared _ reference _ => reference.text

/-- The classes that a file can import. -/
inductive Import
  | jsonCreator | jsonIgnoreProperties | jsonInclude | jsonProperty | jsonSubTypes | jsonTypeInfo
  | jsonValue | jsonSerialize | offsetDateTime | list | map
  deriving DecidableEq, Repr

namespace Import

/-- All imports, in the order of their paths. -/
def all : List Import :=
  [jsonCreator, jsonIgnoreProperties, jsonInclude, jsonProperty, jsonSubTypes, jsonTypeInfo,
   jsonValue, jsonSerialize, offsetDateTime, list, map]

def path : Import → String
  | jsonCreator => "com.fasterxml.jackson.annotation.JsonCreator"
  | jsonIgnoreProperties => "com.fasterxml.jackson.annotation.JsonIgnoreProperties"
  | jsonInclude => "com.fasterxml.jackson.annotation.JsonInclude"
  | jsonProperty => "com.fasterxml.jackson.annotation.JsonProperty"
  | jsonSubTypes => "com.fasterxml.jackson.annotation.JsonSubTypes"
  | jsonTypeInfo => "com.fasterxml.jackson.annotation.JsonTypeInfo"
  | jsonValue => "com.fasterxml.jackson.annotation.JsonValue"
  | jsonSerialize => "com.fasterxml.jackson.databind.annotation.JsonSerialize"
  | offsetDateTime => "java.time.OffsetDateTime"
  | list => "java.util.List"
  | map => "java.util.Map"

end Import

/-- The types that a declaration writes. -/
def typesOf : Body Unit → List TypeExpr
  | .record fields _ => fields.map (·.type)
  | .variant _ _ fields _ => fields.map (·.type)
  | .wrapper inner => [inner]
  | _ => []

def usesList (type : TypeExpr) : Bool :=
  type.anyLevel (fun
    | .elements none _ _ => true
    | _ => false)

def usesMap (type : TypeExpr) : Bool :=
  type.anyLevel (fun
    | .values none _ _ => true
    | _ => false)

/-- The annotations of a class with fields. -/
def classUses (fields : List (Field Unit)) (additional : Bool) : Import → Bool
  | .jsonSerialize => true
  | .jsonIgnoreProperties => additional
  | .jsonProperty => !fields.isEmpty
  | .jsonInclude => fields.any (fun f => !f.required)
  | _ => false

def annotates (body : Body Unit) (i : Import) : Bool :=
  match body with
  | .record fields additional => classUses fields additional i
  | .variant _ _ fields additional => classUses fields additional i
  | .enumeration _ => i == .jsonProperty
  | .union .. => i == .jsonTypeInfo || i == .jsonSubTypes
  | .wrapper _ => i == .jsonCreator || i == .jsonValue

def uses (body : Body Unit) (i : Import) : Bool :=
  annotates body i ||
    (match i with
      | .offsetDateTime => (typesOf body).any (·.usesPrimitive .timestamp)
      | .list => (typesOf body).any usesList
      | .map => (typesOf body).any usesMap
      | _ => false)

def importsOf (body : Body Unit) : List String := (Import.all.filter (uses body)).map Import.path

def comment (indent : String) (described : Option String) : List String :=
  blockComment indent "*&#47;" described

def capitalized (name : String) : String :=
  match name.toList with
  | [] => ""
  | c :: rest => String.ofList (c.toUpper :: rest)

/-- A getter and a setter, each under the description of its field. -/
def accessorLines (field type : String) (described : Option String) : List String :=
  [""] ++ comment "    " described ++
    ["    public " ++ type ++ " get" ++ capitalized field ++ "() \x7b",
     "        return " ++ field ++ ";",
     "    \x7d",
     ""] ++ comment "    " described ++
    ["    public void set" ++ capitalized field ++ "(" ++ type ++ " " ++ field ++ ") \x7b",
     "        this." ++ field ++ " = " ++ field ++ ";",
     "    \x7d"]

def fieldLines (f : Field Unit) : List String :=
  comment "    " f.described ++
    (if f.required then [] else ["    @JsonInclude(JsonInclude.Include.NON_NULL)"]) ++
    ["    @JsonProperty(" ++ Text.jsonString f.wireName ++ ")",
     "    private " ++ typeText f.type ++ " " ++ f.name ++ ";",
     ""]

def classLines (name : String) (described : Option String) (base : Option String)
    (fields : List (Field Unit)) (additional : Bool) : List String :=
  comment "" described ++ ["@JsonSerialize"] ++
    (if additional then ["@JsonIgnoreProperties(ignoreUnknown = true)"] else []) ++
    ["public class " ++ name ++ (match base with
      | some base => " extends " ++ base
      | none => "") ++ " \x7b"] ++
    fields.flatMap fieldLines ++
    ["    public " ++ name ++ "() \x7b", "    \x7d"] ++
    fields.flatMap (fun f => accessorLines f.name (typeText f.type) f.described) ++
    ["\x7d"]

def choiceLines (c : Choice) : List String :=
  comment "    " c.described ++
    ["    @JsonProperty(" ++ Text.jsonString c.value ++ ")", "    " ++ c.constant ++ ","]

/-- An empty line stands between two choices. -/
def choicesLines : List Choice → List String
  | [] => []
  | c :: rest => choiceLines c ++ rest.flatMap (fun c => "" :: choiceLines c)

def caseLine (c : Case) : String :=
  "    @JsonSubTypes.Type(name = " ++ Text.jsonString c.tagValue ++ ", value = " ++
    c.reference.text ++ ".class),"

def wrapperLines (name : String) (described : Option String) (type : String) : List String :=
  comment "" described ++
    ["public class " ++ name ++ " \x7b",
     "    @JsonValue",
     "    private " ++ type ++ " value;",
     "",
     "    public " ++ name ++ "() \x7b",
     "    \x7d",
     "",
     "    @JsonCreator",
     "    public " ++ name ++ "(" ++ type ++ " value) \x7b",
     "        this.value = value;",
     "    \x7d"] ++ accessorLines "value" type none ++ ["\x7d"]

def bodyLines (name : String) (described : Option String) : Body Unit → List String
  | .record fields additional => classLines name described none fields additional
  | .variant base _ fields additional =>
    classLines name described (some base.text) fields additional
  | .enumeration choices =>
    comment "" described ++ ["public enum " ++ name ++ " \x7b"] ++ choicesLines choices ++ ["\x7d"]
  | .union tag cases =>
    comment "" described ++
      ["@JsonTypeInfo(use = JsonTypeInfo.Id.NAME, property = " ++ Text.jsonString tag ++ ")",
       "@JsonSubTypes(\x7b"] ++ cases.map caseLine ++
      ["\x7d)", "public abstract class " ++ name ++ " \x7b", "\x7d"]
  | .wrapper inner => wrapperLines name described (typeText inner)

def helperImports : List String :=
  ["com.fasterxml.jackson.core.JsonGenerator",
   "com.fasterxml.jackson.core.JsonParser",
   "com.fasterxml.jackson.core.JsonProcessingException",
   "com.fasterxml.jackson.databind.DeserializationContext",
   "com.fasterxml.jackson.databind.JsonDeserializer",
   "com.fasterxml.jackson.databind.JsonSerializer",
   "com.fasterxml.jackson.databind.SerializerProvider",
   "com.fasterxml.jackson.databind.annotation.JsonDeserialize",
   "com.fasterxml.jackson.databind.annotation.JsonSerialize",
   "java.io.IOException"]

/-- A class that holds an unsigned number in the signed one of its width. -/
def helperLines (u : Unsigned) : List String :=
  let name := u.className
  ["@JsonSerialize(using = " ++ name ++ ".Serializer.class)",
   "@JsonDeserialize(using = " ++ name ++ ".Deserializer.class)",
   "public class " ++ name ++ " \x7b",
   "    private " ++ u.signed ++ " value;",
   "",
   "    public " ++ name ++ "() \x7b",
   "    \x7d",
   "",
   "    public " ++ name ++ "(" ++ u.signed ++ " value) \x7b",
   "        this.value = value;",
   "    \x7d"] ++ accessorLines "value" u.signed none ++
  ["",
   "    public static class Serializer extends JsonSerializer<" ++ name ++ "> \x7b",
   "        @Override",
   "        public void serialize(" ++ name ++
     " value, JsonGenerator gen, SerializerProvider serializers)",
   "                throws IOException, JsonProcessingException \x7b",
   "            gen.writeNumber(" ++ u.boxed ++ ".toUnsignedLong(value.getValue()));",
   "        \x7d",
   "    \x7d",
   "",
   "    public static class Deserializer extends JsonDeserializer<" ++ name ++ "> \x7b",
   "        @Override",
   "        public " ++ name ++ " deserialize(JsonParser p, DeserializationContext ctxt)",
   "                throws IOException, JsonProcessingException \x7b",
   "            return new " ++ name ++ "((" ++ u.signed ++ ") p.getLongValue());",
   "        \x7d",
   "    \x7d",
   "\x7d"]

def file (package name : String) (imports body : List String) : File :=
  ⟨name ++ ".java", Text.unlines
    (["// " ++ notice, "", "package " ++ package ++ ";", ""] ++
      (if imports.isEmpty then [] else imports.map (fun i => "import " ++ i ++ ";") ++ [""]) ++
      body)⟩

def draftFile (package : String) (d : Draft Unit Unit) : File :=
  file package d.name (importsOf d.body) (bodyLines d.name d.described d.body)

/-- The unsigned numbers that declarations use, by width. -/
def unsignedIn (drafts : List (Draft Unit Unit)) : List Unsigned :=
  Unsigned.all.filter
    (fun u => drafts.any (fun d => (typesOf d.body).any (·.usesPrimitive u.primitive)))

def files (package : String) (c : NamedCatalog) : Except Unsupported (List File) := do
  let drafts ← rules.drafts c
  return drafts.map (draftFile package) ++
    (unsignedIn drafts).map (fun u => file package u.className helperImports (helperLines u))

end SchemaBindings.Binding.JavaClasses
