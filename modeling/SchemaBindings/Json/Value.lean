import SchemaBindings.Keyed

/-! JSON values. An object is kept as it was written; `fields?` gives its meaning, in which the
order of the members is lost and the last of several members with one key counts. -/

namespace SchemaBindings

/-- A whole number of 64 bits, or any other number as mantissa times a power of ten. -/
inductive Number
  | whole (value : Int)
  | decimal (mantissa exponent : Int)
  deriving DecidableEq, Repr

inductive Json
  | null
  | bool (value : Bool)
  | number (value : Number)
  | string (text : String)
  | array (items : List Json)
  | object (members : List (String × Json))
  deriving Repr

namespace Json

def fields? : Json → Option (List (String × Json))
  | .object members => some (Keyed.ofList members)
  | _ => none

theorem fields?_eq_some {value : Json} {fields : List (String × Json)} :
    value.fields? = some fields ↔
      ∃ members, value = .object members ∧ fields = Keyed.ofList members := by
  cases value <;> simp [fields?, eq_comm]

theorem increasing_fields {value : Json} {fields : List (String × Json)}
    (object : value.fields? = some fields) : Keyed.Increasing fields := by
  obtain ⟨members, -, rfl⟩ := fields?_eq_some.1 object
  exact Keyed.increasing_ofList members

mutual
/-- The number of values and members in a value, the measure of a walk through it. -/
def weight : Json → Nat
  | .array items => weightItems items + 1
  | .object members => weightMembers members + 4
  | _ => 1

def weightItems : List Json → Nat
  | [] => 0
  | item :: rest => item.weight + weightItems rest

def weightMembers : List (String × Json) → Nat
  | [] => 0
  | (_, value) :: rest => value.weight + 1 + weightMembers rest
end

theorem weightMembers_insert (key : String) (value : Json) (entries : List (String × Json)) :
    weightMembers (Keyed.insert key value entries) ≤ value.weight + 1 + weightMembers entries := by
  induction entries with
  | nil => simp [Keyed.insert, weightMembers]
  | cons head rest ih =>
    obtain ⟨k, v⟩ := head
    simp only [Keyed.insert]
    split
    · simp [weightMembers]
    · split
      · simp only [weightMembers]; omega
      · simp only [weightMembers]; omega

theorem weightMembers_foldl (entries sorted : List (String × Json)) :
    weightMembers (entries.foldl (fun sorted e => Keyed.insert e.1 e.2 sorted) sorted) ≤
      weightMembers entries + weightMembers sorted := by
  induction entries generalizing sorted with
  | nil => simp [weightMembers]
  | cons e rest ih =>
    have h := ih (Keyed.insert e.1 e.2 sorted)
    have hi := weightMembers_insert e.1 e.2 sorted
    simp only [List.foldl_cons, weightMembers]
    omega

theorem weightMembers_ofList (entries : List (String × Json)) :
    weightMembers (Keyed.ofList entries) ≤ weightMembers entries := by
  simpa [Keyed.ofList, weightMembers] using weightMembers_foldl entries []

theorem weight_lookup {key : String} {value : Json} {entries : List (String × Json)}
    (h : entries.lookup key = some value) : value.weight < weightMembers entries := by
  induction entries with
  | nil => simp at h
  | cons head rest ih =>
    obtain ⟨k, v⟩ := head
    rw [List.lookup_cons] at h
    split at h
    · cases h; simp only [weightMembers]; omega
    · have := ih h; simp only [weightMembers]; omega

theorem weight_object_lookup {key : String} {members entries : List (String × Json)}
    (h : entries.lookup key = some (.object members)) :
    weightMembers (Keyed.ofList members) + 4 < weightMembers entries := by
  have hv := weight_lookup h
  have hs := weightMembers_ofList members
  simp only [weight] at hv
  omega

end Json

end SchemaBindings
