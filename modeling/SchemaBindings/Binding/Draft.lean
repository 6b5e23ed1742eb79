import SchemaBindings.Binding.TypeExpr

/-! Declarations with everything known that a language needs to write them. All that a language
cannot render is found while the drafts are made; writing a draft cannot fail. -/

namespace SchemaBindings.Binding

/-- A member of a record or a variant. `extra` is what the language reads beside the rest. -/
structure Field (μ : Type) where
  wireName : String
  name : String
  required : Bool
  described : Option String
  type : TypeExpr
  extra : μ

/-- A variant as its union sees it. -/
structure Case where
  tagValue : String
  member : String
  constant : String
  reference : Reference

/-- A value of an enumeration and its constant. -/
structure Choice where
  value : String
  constant : String
  described : Option String

inductive Body (μ : Type)
  | record (fields : List (Field μ)) (additional : Bool)
  | enumeration (choices : List Choice)
  | union (tag : String) (cases : List Case)
  | variant (base : Reference) (tagValue : String) (fields : List (Field μ)) (additional : Bool)
  | wrapper (inner : TypeExpr)

structure Draft (ε μ : Type) where
  id : Nat
  name : String
  described : Option String
  body : Body μ
  extra : ε

/-- What one language asks of a catalog beside its types: of each declaration, of each member, and
of each variant and the text that refers to it. -/
structure Rules (ε μ : Type) where
  keys : HintKeys
  declaration : NamedCatalog → Declaration → Naming.Names → Except Unsupported ε
  member : Member → Except Unsupported μ
  variant : Declaration → Reference → Except Unsupported Unit

namespace Rules

variable {ε μ : Type}

def fields (rules : Rules ε μ) (c : NamedCatalog) :
    List (Member × String) → Except Unsupported (List (Field μ))
  | [] => .ok []
  | (m, name) :: rest => do
    let type ← TypeExpr.ofUse rules.keys c m.type
    let extra ← rules.member m
    return ⟨m.wireName, name, m.required, m.described, type, extra⟩ :: (← rules.fields c rest)

def cases (rules : Rules ε μ) (c : NamedCatalog) :
    List (Nat × String × String) → Except Unsupported (List Case)
  | [] => .ok []
  | (id, member, constant) :: rest =>
    match c.catalog.declaration? id with
    | some d =>
      match d.shape with
      | .variant _ tagValue _ _ => do
        let reference ← c.reference rules.keys id
        rules.variant d reference
        return ⟨tagValue, member, constant, reference⟩ :: (← rules.cases c rest)
      | _ => rules.cases c rest
    | none => rules.cases c rest

def body (rules : Rules ε μ) (c : NamedCatalog) (names : Naming.Names) :
    Shape → Except Unsupported (Body μ)
  | .record members additional => do
    return .record (← rules.fields c (members.zip names.members)) additional
  | .enumeration values =>
    .ok (.enumeration
      ((values.zip names.constants).map (fun (v, name) => ⟨v.value, name, v.described⟩)))
  | .union tag variants => do
    return .union tag (← rules.cases c (variants.zip (names.members.zip names.constants)))
  | .variant parent tagValue members additional => do
    let base ← c.reference rules.keys parent
    return .variant base tagValue (← rules.fields c (members.zip names.members)) additional
  | .wrapper inner => do return .wrapper (← TypeExpr.ofUse rules.keys c inner)

def draft (rules : Rules ε μ) (c : NamedCatalog) (d : Declaration) (names : Naming.Names) :
    Except Unsupported (Draft ε μ) := do
  let extra ← rules.declaration c d names
  let body ← rules.body c names d.shape
  return ⟨d.id, names.type, d.metadata.described, body, extra⟩

def draftAll (rules : Rules ε μ) (c : NamedCatalog) :
    List (Declaration × Naming.Names) → Except Unsupported (List (Draft ε μ))
  | [] => .ok []
  | (d, names) :: rest => do
    let draft ← rules.draft c d names
    return draft :: (← rules.draftAll c rest)

/-- The declarations that no type hint replaces, with their names. -/
def written (rules : Rules ε μ) (c : NamedCatalog) : List (Declaration × Naming.Names) :=
  let marks := replaced rules.keys.type c.catalog
  (((c.catalog.declarations.zip c.names).zip marks).filter (fun (_, mark) => !mark)).map (·.1)

def drafts (rules : Rules ε μ) (c : NamedCatalog) : Except Unsupported (List (Draft ε μ)) :=
  rules.draftAll c (rules.written c)

end Rules

end SchemaBindings.Binding
