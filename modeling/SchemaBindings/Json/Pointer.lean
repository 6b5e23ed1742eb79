/-! Pointers into a JSON document: each step down adds a slash and an escaped segment. -/

namespace SchemaBindings

structure Pointer where
  text : String
  deriving DecidableEq, Repr

namespace Pointer

/-- The whole document. -/
def root : Pointer := ⟨""⟩

/-- A tilde and a slash are the two characters that a segment cannot hold as they are. -/
def escapeChar : Char → List Char
  | '~' => ['~', '0']
  | '/' => ['~', '1']
  | c => [c]

def escape (segment : String) : String :=
  String.ofList (segment.toList.flatMap escapeChar)

def child (p : Pointer) (segment : String) : Pointer := ⟨p.text ++ "/" ++ escape segment⟩

def descend (p : Pointer) (segments : List String) : Pointer := segments.foldl child p

/-- The item of an array at an index, counted from zero. -/
def element (p : Pointer) (index : Nat) : Pointer := ⟨p.text ++ "/" ++ index.repr⟩

theorem descend_append (p : Pointer) (xs ys : List String) :
    p.descend (xs ++ ys) = (p.descend xs).descend ys := by
  simp [descend]

end Pointer

end SchemaBindings
