/-! Names in one scope. A name that is taken is made free by the least number behind it. -/

namespace SchemaBindings.Naming

structure Scope where
  taken : List String
  deriving Repr

namespace Scope

def empty : Scope := ⟨[]⟩

def contains (s : Scope) (name : String) : Bool := s.taken.contains name

def reserve (s : Scope) (name : String) : Scope := ⟨name :: s.taken⟩

def numbered (base : String) (k : Nat) : String := base ++ k.repr

/-- The name that `base` gets. When `base` is taken, one of as many numbers as there are taken names
makes it free. -/
def free (s : Scope) (base : String) : String :=
  if s.contains base then
    match (List.range s.taken.length).find? (fun k => !s.contains (numbered base k)) with
    | some k => numbered base k
    | none => numbered base s.taken.length
  else base

def claim (s : Scope) (base : String) : String × Scope :=
  let name := s.free base
  (name, s.reserve name)

/-- Claims names one after the other. -/
def claimAll (s : Scope) : List String → List String × Scope
  | [] => ([], s)
  | base :: rest =>
    let (name, s) := s.claim base
    let (names, s) := s.claimAll rest
    (name :: names, s)

end Scope

end SchemaBindings.Naming
