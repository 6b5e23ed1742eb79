import SchemaBindings.Catalog.Basic
import SchemaBindings.Naming.Convention
import SchemaBindings.Naming.Scope

/-! The identifiers of a whole catalog. Types are named first, in the order of the catalog and in
one scope, so that neither members nor constants can take a name that a type needs. -/

namespace SchemaBindings.Naming

/-- The identifiers of one declaration. -/
structure Names where
  type : String
  /-- One for each member of a record or a variant, and for each variant of a union. -/
  members : List String
  /-- One for each value of an enumeration, and for each variant of a union. -/
  constants : List String
  /-- The member that holds the tag of a union or a variant. -/
  tagMember : Option String
  deriving DecidableEq, Repr

def Names.none : Names := ⟨"", [], [], Option.none⟩

def typeScope (c : Convention) : Scope := c.reservedTypeNames.foldl Scope.reserve .empty

/-- The names of all types, and the scope that holds them. -/
def typeNames (c : Convention) (catalog : Catalog) : List String × Scope :=
  (typeScope c).claimAll (catalog.declarations.map (fun d => c.typeName d.path))

def memberNames (c : Convention) (scope : Scope) (members : List Member) : List String :=
  (scope.claimAll (members.map (fun m => c.memberName m.wireName))).1

def tagValue? (catalog : Catalog) (id : Nat) : Option String :=
  match catalog.shape? id with
  | some (.variant _ tagValue _ _) => some tagValue
  | _ => none

def tag? (catalog : Catalog) (id : Nat) : Option String :=
  match catalog.shape? id with
  | some (.union tag _) => some tag
  | _ => none

/-- The identifiers of one declaration whose type is already named. Only constants that live among
the types change the scope of the types. -/
def namesOf (c : Convention) (catalog : Catalog) (types : Scope) (type : String) :
    Shape → Names × Scope
  | .record members _ => (⟨type, memberNames c .empty members, [], none⟩, types)
  | .variant parent _ members _ =>
    match (tag? catalog parent).map c.memberName with
    | some tag => (⟨type, memberNames c (Scope.empty.reserve tag) members, [], some tag⟩, types)
    | none => (⟨type, memberNames c .empty members, [], none⟩, types)
  | .union tag variants =>
    let (tagMember, scope) := Scope.empty.claim (c.memberName tag)
    let tagValues := variants.filterMap (tagValue? catalog)
    (⟨type, (scope.claimAll (tagValues.map c.memberName)).1,
      (Scope.empty.claimAll (tagValues.map c.constantName)).1, some tagMember⟩, types)
  | .enumeration values =>
    match c.constantScope with
    | .perEnum =>
      let bases := values.map (fun v => c.constantName v.value)
      (⟨type, [], (Scope.empty.claimAll bases).1, none⟩, types)
    | .global =>
      let bases := values.map (fun v => c.globalConstantName type v.value)
      let (constants, types) := types.claimAll bases
      (⟨type, [], constants, none⟩, types)
  | .wrapper _ => (⟨type, [], [], none⟩, types)

def namesFrom (c : Convention) (catalog : Catalog) (types : Scope) :
    List (Declaration × String) → List Names
  | [] => []
  | (d, type) :: rest =>
    let (names, types) := namesOf c catalog types type d.shape
    names :: namesFrom c catalog types rest

/-- The identifiers of every declaration, in the order of the catalog. -/
def resolve (c : Convention) (catalog : Catalog) : List Names :=
  let (types, scope) := typeNames c catalog
  namesFrom c catalog scope (catalog.declarations.zip types)

end SchemaBindings.Naming
