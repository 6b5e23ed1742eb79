import SchemaBindings.Binding.Comment
import SchemaBindings.Binding.Containment
import SchemaBindings.Binding.File
import SchemaBindings.Unicode.Alphanumeric

/-! Go: structs with tags for `encoding/json`, in one file of a package. -/

namespace SchemaBindings.Binding.GoPackage

def naming : Naming.Convention where
  typeCase := .pascal
  memberCase := .pascal
  constantCase := .pascal
  keywords :=
    ["break", "case", "chan", "const", "continue", "default", "defer", "else", "fallthrough",
     "for", "func", "go", "goto", "if", "import", "interface", "map", "package", "range",
     "return", "select", "struct", "switch", "type", "var"]
  initialisms :=
    ["acl", "api", "ascii", "cpu", "css", "dns", "eof", "guid", "html", "http", "https", "id",
     "ip", "json", "lhs", "qps", "ram", "rhs", "rpc", "sla", "smtp", "sql", "ssh", "tcp", "tls",
     "ttl", "udp", "ui", "uid", "uri", "url", "utf8", "uuid", "vm", "xml", "xmpp", "xsrf", "xss"]
  constantScope := .global
  reservedTypeNames := []

def hints : HintKeys := ⟨.go, "goType", some "goContainer"⟩

def discriminatorKey : String := "goDiscriminatorType"

/-- The characters beside letters and digits that a name in a struct tag may have. -/
def tagPunctuation : List Char := "!#$%&()*+-./:;<=>?@[]^_\x7b|\x7d~ ".toList

def isTagName (name : String) : Bool :=
  !name.isEmpty &&
    name.toList.all (fun c => Unicode.isAlphanumeric c || tagPunctuation.contains c)

/-- A wire name as a struct tag holds it. A hyphen alone would hide the field. -/
def tagName (name : String) (here : Pointer) : Except Unsupported String :=
  if !isTagName name then .error ⟨.go, here, .notTagName name⟩
  else if name = "-" then .ok "-,"
  else .ok name

def isIdentifier : List Char → Bool
  | [] => false
  | c :: rest =>
    (c.isAlpha || c == '_') && rest.all (fun c => c.isAlphanum || c == '_')

/-- A type that can be embedded in a struct: a name, alone or in a package. -/
def isEmbeddable (type : String) : Bool :=
  let parts := Text.splitAtEach (· == '.') type.toList
  parts.length ≤ 2 && parts.all isIdentifier

/-- The field that holds the tag of a union. -/
structure TagField where
  member : String
  type : String
  tagName : String

/-- A union has a tag field; other declarations have none. -/
def tagField (d : Declaration) (names : Naming.Names) : Except Unsupported (Option TagField) :=
  match d.shape with
  | .union tag _ =>
    match names.tagMember with
    | none => .error ⟨.go, d.pointer, .noTagMember⟩
    | some member => do
      let type ← hints.string? discriminatorKey d.metadata d.pointer
      let name ← tagName tag (d.pointer.child "discriminator")
      return some ⟨member, type.getD "string", name⟩
  | _ => .ok none

def checkVariant (d : Declaration) (reference : Reference) : Except Unsupported Unit :=
  if isEmbeddable reference.text then .ok ()
  else hints.reject d.pointer hints.type (.notEmbeddable reference.text)

def rules : Rules (Option TagField) String where
  keys := hints
  declaration _ d names := tagField d names
  member m := tagName m.wireName m.type.pointer
  variant := checkVariant

def primitiveText : Primitive → String
  | .boolean => "bool"
  | .string => "string"
  | .timestamp => "time.Time"
  | .float32 => "float32"
  | .float64 => "float64"
  | .int8 => "int8"
  | .uint8 => "uint8"
  | .int16 => "int16"
  | .uint16 => "uint16"
  | .int32 => "int32"
  | .uint32 => "uint32"

def pointerTo (pointed : Bool) (type : String) : String := if pointed then "*" ++ type else type

/-- The spelling of a type. `pointed` says which declarations are held through a pointer; inside a
container none is. A list, a map and an interface can be nil as they are. -/
def typeText (pointed : Nat → Bool) : TypeExpr → String
  | .verbatim text => text
  | .anything => "interface\x7b\x7d"
  | .primitive p nullable => pointerTo nullable (primitiveText p)
  | .elements none item _ => "[]" ++ typeText (fun _ => false) item
  | .elements (some container) item _ =>
    container ++ "[" ++ typeText (fun _ => false) item ++ "]"
  | .values none item _ => "map[string]" ++ typeText (fun _ => false) item
  | .values (some container) item _ =>
    container ++ "[string, " ++ typeText (fun _ => false) item ++ "]"
  | .declared id reference nullable => pointerTo (nullable || pointed id) reference.text

/-- Whether absence can be told without a pointer. -/
def isNilable : TypeExpr → Bool
  | .anything | .elements .. | .values .. => true
  | _ => false

/-- The type of a field: one that may be missing is held through a pointer, but not twice. -/
def fieldType (pointed : Nat → Bool) (f : Field String) : String :=
  let type := typeText pointed f.type
  pointerTo (!f.required && !("*".isPrefixOf type || isNilable f.type)) type

def fieldLines (pointed : Nat → Bool) (f : Field String) : List String :=
  lineComment "\t// " f.described ++
    ["\t" ++ f.name ++ " " ++ fieldType pointed f ++ " \x60json:\"" ++ f.extra ++
      (if f.required then "" else ",omitempty") ++ "\"\x60"]

def structLines (pointed : Nat → Bool) (name : String) (fields : List (Field String)) :
    List String :=
  ["type " ++ name ++ " struct \x7b"] ++ fields.flatMap (fieldLines pointed) ++ ["\x7d"]

def choiceLines (type : String) (c : Choice) : List String :=
  lineComment "\t// " c.described ++
    ["\t" ++ c.constant ++ " " ++ type ++ " = " ++ Text.jsonString c.value]

def unionLines (name : String) (t : TagField) (cases : List Case) : List String :=
  ["type " ++ name ++ " struct \x7b", "\t" ++ t.member ++ " " ++ t.type] ++
    cases.map (fun c => "\t" ++ c.member ++ " " ++ c.reference.text) ++ ["\x7d"]

def marshalCase (t : TagField) (c : Case) : List String :=
  ["\tcase " ++ Text.jsonString c.tagValue ++ ":",
   "\t\treturn json.Marshal(struct \x7b",
   "\t\t\tT " ++ t.type ++ " \x60json:\"" ++ t.tagName ++ "\"\x60",
   "\t\t\t" ++ c.reference.text,
   "\t\t\x7d\x7bv." ++ t.member ++ ", v." ++ c.member ++ "\x7d)"]

/-- Writes the tag beside the fields of the variant that it names. -/
def marshalLines (name : String) (t : TagField) (cases : List Case) : List String :=
  ["func (v " ++ name ++ ") MarshalJSON() ([]byte, error) \x7b",
   "\tswitch v." ++ t.member ++ " \x7b"] ++
    cases.flatMap (marshalCase t) ++
    ["\t\x7d",
     "",
     "\treturn nil, fmt.Errorf(\"bad " ++ t.member ++ " value: %s\", v." ++ t.member ++ ")",
     "\x7d"]

def unmarshalCase (c : Case) : List String :=
  ["\tcase " ++ Text.jsonString c.tagValue ++ ":",
   "\t\terr = json.Unmarshal(b, &v." ++ c.member ++ ")"]

/-- Reads the tag first, and then the variant that it names. -/
def unmarshalLines (name : String) (t : TagField) (cases : List Case) : List String :=
  ["func (v *" ++ name ++ ") UnmarshalJSON(b []byte) error \x7b",
   "\tvar t struct \x7b",
   "\t\tT " ++ t.type ++ " \x60json:\"" ++ t.tagName ++ "\"\x60",
   "\t\x7d",
   "",
   "\tif err := json.Unmarshal(b, &t); err != nil \x7b",
   "\t\treturn err",
   "\t\x7d",
   "",
   "\tvar err error",
   "\tswitch t.T \x7b"] ++
    cases.flatMap unmarshalCase ++
    ["\tdefault:",
     "\t\terr = fmt.Errorf(\"bad " ++ t.member ++ " value: %s\", t.T)",
     "\t\x7d",
     "",
     "\tif err != nil \x7b",
     "\t\treturn err",
     "\t\x7d",
     "",
     "\tv." ++ t.member ++ " = t.T",
     "\treturn nil",
     "\x7d"]

def bodyLines (pointed : Nat → Bool) (name : String) (tag : Option TagField) :
    Body String → List String
  | .record fields _ => structLines pointed name fields
  | .variant _ _ fields _ => structLines pointed name fields
  | .enumeration choices =>
    ["type " ++ name ++ " string", "", "const ("] ++ choices.flatMap (choiceLines name) ++ [")"]
  | .union _ cases =>
    match tag with
    | none => []
    | some t =>
      unionLines name t cases ++ [""] ++ marshalLines name t cases ++ [""] ++
        unmarshalLines name t cases
  | .wrapper (.declared id reference nullable) =>
    ["type " ++ name ++ " = " ++ typeText pointed (.declared id reference nullable)]
  | .wrapper inner => ["type " ++ name ++ " " ++ typeText pointed inner]

def itemLines (edges : List (List Nat)) (d : Draft (Option TagField) String) : List String :=
  lineComment "// " d.described ++ bodyLines (closesCycle edges d.id) d.name d.extra d.body

def usesTime : Body String → Bool
  | .record fields _ => fields.any (·.type.usesPrimitive .timestamp)
  | .variant _ _ fields _ => fields.any (·.type.usesPrimitive .timestamp)
  | .wrapper inner => inner.usesPrimitive .timestamp
  | _ => false

def isUnion : Body String → Bool
  | .union .. => true
  | _ => false

/-- The packages that the declarations use, in order. -/
def imports (drafts : List (Draft (Option TagField) String)) : List String :=
  (if drafts.any (fun d => isUnion d.body) then ["encoding/json", "fmt"] else []) ++
    (if drafts.any (fun d => usesTime d.body) then ["time"] else [])

def importLines (packages : List String) : List String :=
  if packages.isEmpty then []
  else ["", "import ("] ++ packages.map (fun p => "\t\"" ++ p ++ "\"") ++ [")"]

def files (package : String) (c : NamedCatalog) : Except Unsupported (List File) := do
  let edges := holdings c.catalog
  let drafts ← rules.drafts c
  return [⟨package ++ ".go", Text.unlines
    (["// " ++ notice, "", "package " ++ package] ++ importLines (imports drafts) ++
      drafts.flatMap (fun d => "" :: itemLines edges d))⟩]

end SchemaBindings.Binding.GoPackage
