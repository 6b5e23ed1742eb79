/-! A class of characters is a list of runs of code points. -/

namespace SchemaBindings.Unicode

/-- The code points `first`, `first + step`, `first + 2 * step`, … up to `last`. -/
structure Run where
  first : Nat
  last : Nat
  step : Nat
  deriving DecidableEq, Repr

def Run.contains (r : Run) (code : Nat) : Bool :=
  r.first ≤ code && code ≤ r.last && (code - r.first) % r.step == 0

def inRuns (runs : List Run) (c : Char) : Bool := runs.any (·.contains c.toNat)

end SchemaBindings.Unicode
