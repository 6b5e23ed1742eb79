import SchemaBindings.Binding.Unsupported
import SchemaBindings.Catalog.Basic

/-! Hints are metadata keys that one language reads: a type hint replaces the type of a node by a
text, a container hint the type that holds its items. -/

namespace SchemaBindings.Binding

structure HintKeys where
  language : Language
  type : String
  container : Option String

namespace HintKeys

def reject {α : Type} (keys : HintKeys) (here : Pointer) (key : String)
    (construct : Construct) : Except Unsupported α :=
  .error ⟨keys.language, here.descend ["metadata", key], construct⟩

def string? (keys : HintKeys) (key : String) (metadata : Metadata) (here : Pointer) :
    Except Unsupported (Option String) :=
  match metadata.hint? key with
  | none => .ok none
  | some (.string text) => .ok (some text)
  | some _ => keys.reject here key (.hintNotString key)

def type? (keys : HintKeys) (metadata : Metadata) (here : Pointer) :
    Except Unsupported (Option String) :=
  keys.string? keys.type metadata here

/-- A container hint stands only where there are items to hold. -/
def container? (keys : HintKeys) (hasItems : Bool) (metadata : Metadata) (here : Pointer) :
    Except Unsupported (Option String) :=
  match keys.container with
  | none => .ok none
  | some key =>
    match keys.string? key metadata here with
    | .error fault => .error fault
    | .ok none => .ok none
    | .ok (some text) =>
      if hasItems then .ok (some text) else keys.reject here key (.hintWithoutItems key)

end HintKeys

/-- Marks the declarations that a type hint replaces: each one that carries the hint, and all that
is nested in it. `marks` holds the marks of the declarations so far. -/
def markReplaced (key : String) (marks : List Bool) : List Declaration → List Bool
  | [] => marks
  | d :: rest =>
    let own := (d.metadata.hint? key).isSome
    let inherited := match d.owner with
      | some owner => marks[owner]?.getD false
      | none => false
    markReplaced key (marks ++ [own || inherited]) rest

/-- For each declaration of a catalog whether it is replaced. -/
def replaced (key : String) (catalog : Catalog) : List Bool :=
  markReplaced key [] catalog.declarations

end SchemaBindings.Binding
