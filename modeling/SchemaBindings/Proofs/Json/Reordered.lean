import SchemaBindings.Json.Value
import SchemaBindings.Proofs.Keyed

/-! Values that differ only in the order in which the members of objects are written, and in their
numbers. They have one canonical value. -/

namespace SchemaBindings.Json

open Keyed (keys mapValues)

mutual
/-- The same value, with the members of objects in another order at any depth. No object has two
members with one key. A number may be any other one: how exact it is depends on the decoder, and no
schema holds a number but in metadata that is kept as it is. -/
inductive Reordered : Json → Json → Prop
  | null : Reordered .null .null
  | bool (value : Bool) : Reordered (.bool value) (.bool value)
  | number (value other : Number) : Reordered (.number value) (.number other)
  | string (text : String) : Reordered (.string text) (.string text)
  | array {items others : List Json} (each : ReorderedItems items others) :
      Reordered (.array items) (.array others)
  | object {members moved others : List (String × Json)} (distinct : (keys members).Nodup)
      (each : ReorderedMembers members moved) (order : moved.Perm others) :
      Reordered (.object members) (.object others)

/-- Items that are the same one by one. -/
inductive ReorderedItems : List Json → List Json → Prop
  | nil : ReorderedItems [] []
  | cons {item other : Json} {rest others : List Json} (first : Reordered item other)
      (later : ReorderedItems rest others) : ReorderedItems (item :: rest) (other :: others)

/-- Members that are the same one by one. -/
inductive ReorderedMembers : List (String × Json) → List (String × Json) → Prop
  | nil : ReorderedMembers [] []
  | cons {key : String} {value other : Json} {rest others : List (String × Json)}
      (first : Reordered value other) (later : ReorderedMembers rest others) :
      ReorderedMembers ((key, value) :: rest) ((key, other) :: others)
end

mutual
/-- The value with the members of every object in the order of their keys, and zero for every
number. -/
def canonical : Json → Json
  | .array items => .array (canonicalItems items)
  | .object members => .object (Keyed.ofList (canonicalMembers members))
  | .null => .null
  | .bool value => .bool value
  | .number _ => .number (.whole 0)
  | .string text => .string text

def canonicalItems : List Json → List Json
  | [] => []
  | item :: rest => item.canonical :: canonicalItems rest

def canonicalMembers : List (String × Json) → List (String × Json)
  | [] => []
  | (key, value) :: rest => (key, value.canonical) :: canonicalMembers rest
end

theorem canonicalItems_eq_map (items : List Json) : canonicalItems items = items.map canonical := by
  induction items with
  | nil => rw [canonicalItems, List.map_nil]
  | cons item rest ih => rw [canonicalItems, ih, List.map_cons]

theorem canonicalMembers_eq_mapValues (members : List (String × Json)) :
    canonicalMembers members = mapValues canonical members := by
  induction members with
  | nil => rw [canonicalMembers, Keyed.mapValues_nil]
  | cons member rest ih => rw [canonicalMembers, ih, Keyed.mapValues_cons]

theorem canonical_string (text : String) : canonical (.string text) = .string text := by
  rw [canonical]

theorem canonical_object (members : List (String × Json)) :
    canonical (.object members) = .object (mapValues canonical (Keyed.ofList members)) := by
  rw [canonical, canonicalMembers_eq_mapValues, Keyed.ofList_mapValues]

/-- The meaning of a canonical object is that of the object, with canonical values. -/
theorem fields?_canonical (value : Json) :
    value.canonical.fields? = value.fields?.map (mapValues canonical) := by
  cases value with
  | object members =>
    simp [canonical_object, fields?, Keyed.ofList_mapValues_ofList]
  | _ => simp [canonical, fields?]

mutual
theorem Reordered.canonical_eq {value other : Json} (same : Reordered value other) :
    value.canonical = other.canonical := by
  cases same with
  | array each => rw [canonical, canonical, each.canonical_eq]
  | @object members moved others distinct each order =>
    have keysSame : (keys (mapValues canonical moved)).Nodup := by
      rw [← canonicalMembers_eq_mapValues, ← each.canonical_eq, canonicalMembers_eq_mapValues,
        Keyed.keys_mapValues]
      exact distinct
    have permuted : (mapValues canonical moved).Perm (mapValues canonical others) := order.map _
    rw [canonical, canonical, each.canonical_eq, canonicalMembers_eq_mapValues,
      canonicalMembers_eq_mapValues, Keyed.ofList_eq_of_perm keysSame permuted]
  | _ => rfl

theorem ReorderedItems.canonical_eq {items others : List Json}
    (each : ReorderedItems items others) : canonicalItems items = canonicalItems others := by
  cases each with
  | nil => rfl
  | cons first later => rw [canonicalItems, canonicalItems, first.canonical_eq, later.canonical_eq]

theorem ReorderedMembers.canonical_eq {members others : List (String × Json)}
    (each : ReorderedMembers members others) :
    canonicalMembers members = canonicalMembers others := by
  cases each with
  | nil => rfl
  | cons first later =>
    rw [canonicalMembers, canonicalMembers, first.canonical_eq, later.canonical_eq]
end

end SchemaBindings.Json
