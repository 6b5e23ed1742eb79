import Mathlib.Data.List.Basic
import SchemaBindings.Json.Value
import SchemaBindings.Proofs.Json.Segments

/-! What a pointer leads to in a document, by the rules of JSON Pointer (RFC 6901): an object is
entered by a key, an array by an index in decimal. -/

namespace SchemaBindings

namespace Json

/-- The index that a segment writes, in decimal and with no zero in front. -/
def index? (segment : String) : Option Nat :=
  let index := Nat.ofDigitChars 10 segment.toList 0
  if index.repr = segment then some index else none

/-- One step down, to a member of an object or an item of an array. -/
def step? (value : Json) (segment : String) : Option Json :=
  match value with
  | .object members => (Keyed.ofList members).lookup segment
  | .array items => (index? segment).bind (fun index => items[index]?)
  | _ => none

theorem index?_repr (index : Nat) : index? index.repr = some index := by
  have value : Nat.ofDigitChars 10 index.repr.toList 0 = index := by
    rw [Nat.repr_eq_ofList_toDigits, String.toList_ofList, Nat.ofDigitChars_ten_toDigits]
  simp only [index?, value, if_true]

theorem step?_of_fields {value : Json} {fields : List (String × Json)}
    (object : value.fields? = some fields) (key : String) :
    value.step? key = fields.lookup key := by
  obtain ⟨members, rfl, rfl⟩ := fields?_eq_some.1 object
  rfl

end Json

namespace Pointer

/-- The value that a pointer leads to. A pointer is empty or starts with a slash. -/
def find? (p : Pointer) (document : Json) : Option Json :=
  match p.text.toList with
  | [] | '/' :: _ => p.segments.foldlM Json.step? document
  | _ => none

theorem find?_descend (way : List String) (document : Json) :
    (root.descend way).find? document = way.foldlM Json.step? document := by
  have text := toList_descend_root way
  unfold find?
  cases way with
  | nil => simp [text, segments_descend]
  | cons first rest => simp [text, segments_descend]

theorem escape_repr (index : Nat) : escape index.repr = index.repr := by
  have digits : ∀ c ∈ index.repr.toList, escapeChar c = [c] := by
    intro c member
    rw [Nat.repr_eq_ofList_toDigits, String.toList_ofList] at member
    have digit := Nat.isDigit_of_mem_toDigits (by decide) (by decide) member
    refine escapeChar.eq_3 c ?_ ?_
    · rintro rfl
      exact absurd digit (by decide)
    · rintro rfl
      exact absurd digit (by decide)
  rw [escape, List.flatMap_congr digits, List.flatMap_singleton', String.ofList_toList]

/-- An index is written as a segment that needs no escapes. -/
theorem element_eq_child (p : Pointer) (index : Nat) : p.element index = p.child index.repr := by
  rw [element, child, escape_repr]

/-- The pointer is the way to a value, written down. -/
def LeadsTo (document : Json) (p : Pointer) (value : Json) : Prop :=
  ∃ way, p = root.descend way ∧ way.foldlM Json.step? document = some value

section Ways

variable {document value held : Json} {here : Pointer}

theorem LeadsTo.find? (leads : LeadsTo document here value) : here.find? document = some value := by
  obtain ⟨way, rfl, found⟩ := leads
  rw [find?_descend, found]

theorem leadsTo_root (document : Json) : LeadsTo document root document := ⟨[], rfl, rfl⟩

theorem LeadsTo.step {segment : String} (leads : LeadsTo document here value)
    (found : value.step? segment = some held) : LeadsTo document (here.child segment) held := by
  obtain ⟨way, rfl, reached⟩ := leads
  refine ⟨way ++ [segment], ?_, ?_⟩
  · rw [descend_append]
    rfl
  · rw [List.foldlM_append, reached]
    simpa using found

theorem LeadsTo.field {fields : List (String × Json)} {key : String}
    (leads : LeadsTo document here value) (object : value.fields? = some fields)
    (found : fields.lookup key = some held) : LeadsTo document (here.child key) held :=
  leads.step ((Json.step?_of_fields object key).trans found)

theorem LeadsTo.item {items : List Json} {index : Nat}
    (leads : LeadsTo document here (.array items)) (found : items[index]? = some held) :
    LeadsTo document (here.element index) held := by
  rw [element_eq_child]
  exact leads.step (by simp [Json.step?, Json.index?_repr, found])

end Ways

end Pointer

end SchemaBindings
