import SchemaBindings.Binding.Comment
import SchemaBindings.Binding.Containment
import SchemaBindings.Binding.File

/-! Rust: structs and enums with serde derives, in one module. Paths are written in full, so the
items can stand in any module. -/

namespace SchemaBindings.Binding.RustModule

def naming : Naming.Convention where
  typeCase := .pascal
  memberCase := .snake
  constantCase := .pascal
  keywords :=
    ["Self", "abstract", "as", "async", "await", "become", "box", "break", "const", "continue",
     "crate", "do", "dyn", "else", "enum", "extern", "false", "final", "fn", "for", "gen", "if",
     "impl", "in", "let", "loop", "macro", "match", "mod", "move", "mut", "override", "priv",
     "pub", "ref", "return", "self", "static", "struct", "super", "trait", "true", "try", "type",
     "typeof", "unsafe", "unsized", "use", "virtual", "where", "while", "yield"]
  initialisms := []
  constantScope := .perEnum
  reservedTypeNames :=
    ["Box", "Err", "None", "Ok", "Option", "Result", "Some", "String", "Vec"]

def hints : HintKeys := ⟨.rust, "rustType", some "rustContainer"⟩

def deriveKey : String := "rustCustomDerive"

/-- The parts of a text between double colons. -/
def segments : List Char → List (List Char)
  | [] => [[]]
  | ':' :: ':' :: rest => [] :: segments rest
  | c :: rest => Text.extend c (segments rest)

def isIdentifier : List Char → Bool
  | [] => false
  | c :: rest =>
    (c.isAlpha || c == '_') && rest.all (fun c => c.isAlphanum || c == '_')

def isPath (entry : String) : Bool := (segments entry.toList).all isIdentifier

/-- The entries of a comma-separated list that are not blank. -/
def entries (text : String) : List String :=
  ((Text.splitAtEach (· == ',') text.toList).map (Unicode.trim ∘ String.ofList)).filter
    (fun entry => !entry.isEmpty)

/-- The derive macros that a declaration asks for, each a path. -/
def derives (d : Declaration) : Except Unsupported (List String) := do
  match ← hints.string? deriveKey d.metadata d.pointer with
  | none => return []
  | some text =>
    match (entries text).find? (fun entry => !isPath entry) with
    | some entry => hints.reject d.pointer deriveKey (.notDerivePath entry)
    | none => return entries text

def rules : Rules (List String) Unit where
  keys := hints
  declaration _ d _ := derives d
  member _ := .ok ()
  variant _ _ := .ok ()

def primitiveText : Primitive → String
  | .boolean => "bool"
  | .string => "String"
  | .timestamp => "chrono::DateTime<chrono::FixedOffset>"
  | .float32 => "f32"
  | .float64 => "f64"
  | .int8 => "i8"
  | .uint8 => "u8"
  | .int16 => "i16"
  | .uint16 => "u16"
  | .int32 => "i32"
  | .uint32 => "u32"

def optional (nullable : Bool) (type : String) : String :=
  if nullable then "Option<" ++ type ++ ">" else type

/-- The spelling of a type. `boxed` says which declarations are held through a box; inside a
container none is. -/
def typeText (boxed : Nat → Bool) : TypeExpr → String
  | .verbatim text => text
  | .anything => "serde_json::Value"
  | .primitive p nullable => optional nullable (primitiveText p)
  | .elements container item nullable =>
    optional nullable (container.getD "Vec" ++ "<" ++ typeText (fun _ => false) item ++ ">")
  | .values container item nullable =>
    optional nullable (container.getD "std::collections::BTreeMap" ++ "<String, " ++
      typeText (fun _ => false) item ++ ">")
  | .declared id reference nullable =>
    optional nullable
      (if boxed id then "Box<" ++ reference.text ++ ">" else reference.text)

/-- The type of a field: one that may be missing is optional, but not twice. -/
def fieldType (boxed : Nat → Bool) (f : Field Unit) : String :=
  let type := typeText boxed f.type
  optional (!f.required && !"Option<".isPrefixOf type) type

def renameLine (indent wireName : String) : String :=
  indent ++ "#[serde(rename = \"" ++ Text.asciiEscaped wireName ++ "\")]"

def fieldLines (boxed : Nat → Bool) (f : Field Unit) : List String :=
  lineComment "    /// " f.described ++
    (if f.name = f.wireName then [] else [renameLine "    " f.wireName]) ++
    (if f.required then []
      else ["    #[serde(default, skip_serializing_if = \"Option::is_none\")]"]) ++
    ["    pub " ++ f.name ++ ": " ++ fieldType boxed f ++ ","]

def structLines (boxed : Nat → Bool) (name : String) (fields : List (Field Unit)) : List String :=
  ["pub struct " ++ name ++ " \x7b"] ++ fields.flatMap (fieldLines boxed) ++ ["\x7d"]

def choiceLines (c : Choice) : List String :=
  lineComment "    /// " c.described ++
    [renameLine "    " c.value, "    " ++ c.constant ++ ","]

def caseLines (c : Case) : List String :=
  [renameLine "    " c.tagValue, "    " ++ c.constant ++ "(" ++ c.reference.text ++ "),"]

def bodyLines (boxed : Nat → Bool) (name : String) : Body Unit → List String
  | .record fields additional =>
    (if additional then [] else ["#[serde(deny_unknown_fields)]"]) ++ structLines boxed name fields
  | .variant _ _ fields _ => structLines boxed name fields
  | .enumeration choices =>
    ["pub enum " ++ name ++ " \x7b"] ++ choices.flatMap choiceLines ++ ["\x7d"]
  | .union tag cases =>
    ["#[serde(tag = \"" ++ Text.asciiEscaped tag ++ "\")]", "pub enum " ++ name ++ " \x7b"] ++
      cases.flatMap caseLines ++ ["\x7d"]
  | .wrapper inner =>
    ["#[serde(transparent)]", "pub struct " ++ name ++ "(pub " ++ typeText boxed inner ++ ");"]

def deriveLine (extra : List String) : String :=
  "#[derive(" ++ String.intercalate ", "
    (["Debug", "Clone", "serde::Serialize", "serde::Deserialize"] ++ extra) ++ ")]"

def itemLines (edges : List (List Nat)) (d : Draft (List String) Unit) : List String :=
  lineComment "/// " d.described ++ [deriveLine d.extra] ++
    bodyLines (closesCycle edges d.id) d.name d.body ++ [""]

/-- Every declaration as an item, without the head of a file. -/
def items (c : NamedCatalog) : Except Unsupported String := do
  let edges := holdings c.catalog
  return Text.unlines ((← rules.drafts c).flatMap (itemLines edges))

def files (c : NamedCatalog) : Except Unsupported (List File) := do
  return [⟨"mod.rs", Text.unlines ["//! " ++ notice, ""] ++ (← items c)⟩]

end SchemaBindings.Binding.RustModule
