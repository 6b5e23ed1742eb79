import SchemaBindings.Naming.CaseStyle

/-! The naming rules of one kind of output. -/

namespace SchemaBindings.Naming

/-- Where the constants of an enumeration live. -/
inductive ConstantScope
  | perEnum
  /-- Among the types, so that each constant starts with the words of its type's name. -/
  | global
  deriving DecidableEq, Repr

structure Convention where
  typeCase : CaseStyle
  memberCase : CaseStyle
  constantCase : CaseStyle
  keywords : List String
  initialisms : List String
  constantScope : ConstantScope
  /-- Type names that the output needs for itself. -/
  reservedTypeNames : List String
  deriving Repr

def startsWithDigit (word : String) : Bool :=
  match word.toList with
  | c :: _ => c.isDigit
  | [] => false

/-- No identifier is empty or starts with a digit. -/
def presentable : List String → List String
  | [] => ["empty"]
  | word :: rest => if startsWithDigit word then "n" :: word :: rest else word :: rest

namespace Convention

/-- A keyword of the output is set apart by an underscore. -/
def identifier (c : Convention) (style : CaseStyle) (words : List String) : String :=
  let name := style.apply c.initialisms (presentable words)
  if c.keywords.contains name then name ++ "_" else name

def typeName (c : Convention) (path : List String) : String :=
  c.identifier c.typeCase (path.flatMap splitWords)

def memberName (c : Convention) (wireName : String) : String :=
  c.identifier c.memberCase (splitWords wireName)

def constantName (c : Convention) (value : String) : String :=
  c.identifier c.constantCase (splitWords value)

/-- The name of a constant that lives among the types. -/
def globalConstantName (c : Convention) (typeName value : String) : String :=
  c.identifier c.typeCase (splitWords typeName ++ splitWords value)

end Convention

end SchemaBindings.Naming
