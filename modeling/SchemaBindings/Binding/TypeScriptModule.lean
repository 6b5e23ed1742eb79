import SchemaBindings.Binding.Comment
import SchemaBindings.Binding.File

/-! TypeScript: interfaces and type aliases for decoded JSON, in one module. Properties keep their
wire names. -/

namespace SchemaBindings.Binding.TypeScriptModule

def naming : Naming.Convention where
  typeCase := .pascal
  memberCase := .camel
  constantCase := .pascal
  keywords :=
    ["any", "as", "boolean", "break", "case", "catch", "class", "const", "constructor", "continue",
     "debugger", "declare", "default", "delete", "do", "else", "enum", "export", "extends",
     "false", "finally", "for", "from", "function", "get", "if", "implements", "import", "in",
     "instanceof", "interface", "let", "module", "new", "null", "number", "of", "package",
     "private", "protected", "public", "require", "return", "set", "static", "string", "super",
     "switch", "symbol", "this", "throw", "true", "try", "type", "typeof", "var", "void", "while",
     "with", "yield"]
  initialisms := []
  constantScope := .perEnum
  reservedTypeNames := []

def hints : HintKeys := ⟨.typescript, "typescriptType", none⟩

/-- The tag of a variant's union; other declarations have none. -/
def variantTag (c : NamedCatalog) (d : Declaration) : Except Unsupported (Option String) :=
  match d.shape with
  | .variant parent .. =>
    match Naming.tag? c.catalog parent with
    | some tag => .ok (some tag)
    | none => .error ⟨.typescript, d.pointer, .variantOutsideUnion⟩
  | _ => .ok none

def rules : Rules (Option String) Unit where
  keys := hints
  declaration c d _ := variantTag c d
  member _ := .ok ()
  variant _ _ := .ok ()

def primitiveText : Primitive → String
  | .boolean => "boolean"
  | .string => "string"
  | .timestamp => "string"
  | _ => "number"

def orNull (nullable : Bool) (type : String) : String :=
  if nullable then type ++ " | null" else type

/-- An alternative as the item of a list stands in parentheses. -/
def listText (item : String) : String :=
  if item.toList.contains '|' then "(" ++ item ++ ")[]" else item ++ "[]"

def typeText : TypeExpr → String
  | .verbatim text => text
  | .anything => "any"
  | .primitive p nullable => orNull nullable (primitiveText p)
  | .elements _ item nullable => orNull nullable (listText (typeText item))
  | .values _ item nullable =>
    orNull nullable ("\x7b [key: string]: " ++ typeText item ++ " \x7d")
  | .declared _ reference nullable => orNull nullable reference.text

def isIdentifier (name : String) : Bool :=
  match name.toList with
  | [] => false
  | c :: rest =>
    (c.isAlpha || c == '_' || c == '$') &&
      rest.all (fun c => c.isAlphanum || c == '_' || c == '$')

/-- A property name, quoted unless it is an identifier. -/
def keyText (wireName : String) : String :=
  if isIdentifier wireName then wireName else Text.jsonString wireName

def comment (indent : String) (described : Option String) : List String :=
  blockComment indent "*\\/" described

def fieldLines (f : Field Unit) : List String :=
  comment "  " f.described ++
    ["  " ++ keyText f.wireName ++ (if f.required then "" else "?") ++ ": " ++
      typeText f.type ++ ";"]

def choiceLines (c : Choice) : List String :=
  comment "  " c.described ++ ["  " ++ c.constant ++ " = " ++ Text.jsonString c.value ++ ","]

def interfaceLines (name : String) (tag : List String) (fields : List (Field Unit)) :
    List String :=
  ["export interface " ++ name ++ " \x7b"] ++ tag ++ fields.flatMap fieldLines ++ ["\x7d"]

def bodyLines (name : String) (tag : Option String) : Body Unit → List String
  | .record fields _ => interfaceLines name [] fields
  | .variant _ tagValue fields _ =>
    interfaceLines name
      (tag.toList.map (fun t => "  " ++ keyText t ++ ": " ++ Text.jsonString tagValue ++ ";"))
      fields
  | .enumeration choices =>
    ["export enum " ++ name ++ " \x7b"] ++ choices.flatMap choiceLines ++ ["\x7d"]
  | .union _ cases =>
    let types := if cases.isEmpty then ["never"] else cases.map (·.reference.text)
    ["export type " ++ name ++ " = " ++ String.intercalate " | " types ++ ";"]
  | .wrapper inner => ["export type " ++ name ++ " = " ++ typeText inner ++ ";"]

def itemLines (d : Draft (Option String) Unit) : List String :=
  "" :: comment "" d.described ++ bodyLines d.name d.extra d.body

def files (c : NamedCatalog) : Except Unsupported (List File) := do
  let drafts ← rules.drafts c
  return [⟨"index.ts", Text.unlines (("// " ++ notice) :: drafts.flatMap itemLines)⟩]

end SchemaBindings.Binding.TypeScriptModule
