import SchemaBindings.Proofs.Binding.DocComments
import SchemaBindings.Proofs.Binding.Spelling

/-! Drafts that can be printed: identifiers are identifiers, and no text for a type holds a line
feed. Then every line of an item that is no comment is a line of code. -/

namespace SchemaBindings.Binding

open Naming (IsIdentifier)
open Text (OneLine)

section Drafts

variable {ε μ : Type}

abbrev Field.undescribed (f : Field μ) : Field μ := f.redescribe fun _ => none

abbrev Choice.undescribed (c : Choice) : Choice := c.redescribe fun _ => none

abbrev Body.undescribed (body : Body μ) : Body μ := body.redescribe fun _ => none

/-- A draft without descriptions. -/
abbrev Draft.undescribed (d : Draft ε μ) : Draft ε μ := d.redescribe fun _ => none

/-- Every identifier of a draft is one, and every text for a type stays on its line. -/
abbrev Draft.Printable (d : Draft ε μ) : Prop := d.Spelled IsIdentifier (OneLine ·.toList)

structure Field.Printable (f : Field μ) : Prop where
  named : IsIdentifier f.name
  texts : ∀ text ∈ f.type.texts, OneLine text.toList

end Drafts

section Pieces

theorem visible_of_word {c : Char} (word : c.isAlphanum = true ∨ c = '_') : 0x20 ≤ c.toNat := by
  rcases word with alphanum | rfl
  · exact Naming.of_isAlphanum (P := fun c => 0x20 ≤ c.toNat) (by decide) alphanum
  · decide

theorem visible_of_isIdentifier {name : String} (named : IsIdentifier name) :
    Text.Visible name.toList :=
  fun _ member => visible_of_word (Decidable.not_not.1 fun other => named.not_mem other member)

theorem oneLine_of_isIdentifier {name : String} (named : IsIdentifier name) :
    OneLine name.toList := Text.oneLine_of_visible (visible_of_isIdentifier named)

/-- Behind an indentation a line of code begins with what starts none of the comments. -/
theorem begun_of_head {indent text : String} (blank : Blank indent.toList)
    (single : OneLine text.toList)
    (head : text.toList.head?.any (fun c => !isIndentation c && c != '/') = true) :
    Begun (indent ++ text) := by
  refine ⟨?_, ?_⟩
  · rw [String.toList_append]
    exact Text.oneLine_append.2 ⟨oneLine_of_blank blank, single⟩
  · rw [String.toList_append, unindented_append blank]
    cases chars : text.toList with
    | nil => simp [chars] at head
    | cons c rest =>
      simp only [chars, List.head?_cons, Option.any_some, Bool.and_eq_true,
        Bool.not_eq_true'] at head
      simp [unindented, head]

theorem begun_of_isIdentifier {indent name : String} (blank : Blank indent.toList)
    (named : IsIdentifier name) : Begun (indent ++ name) := by
  refine begun_of_head blank (oneLine_of_isIdentifier named) ?_
  obtain ⟨c, rest, text, letter, -⟩ := named
  have plain : c ≠ ' ' ∧ c ≠ '\t' ∧ c ≠ '/' := by
    refine ⟨?_, ?_, ?_⟩ <;> rintro rfl <;> exact absurd letter (by decide)
  simp [text, isIndentation, plain]

theorem not_mem_getD {c : Char} {container : Option String} {default : String}
    (missing : c ∉ default.toList) (texts : ∀ text ∈ container.toList, c ∉ text.toList) :
    c ∉ (container.getD default).toList := by
  cases container with
  | none => exact missing
  | some text => exact texts text List.mem_cons_self

theorem oneLine_getD {container : Option String} {default : String}
    (single : OneLine default.toList) (texts : ∀ text ∈ container.toList, OneLine text.toList) :
    OneLine (container.getD default).toList :=
  not_mem_getD single texts

theorem printable_of_fields {μ : Type} {fields : List (Field μ)}
    (names : ∀ name ∈ fields.map Field.name, IsIdentifier name)
    (texts : ∀ text ∈ (fields.map Field.type).flatMap TypeExpr.texts, OneLine text.toList) :
    ∀ f ∈ fields, f.Printable :=
  fun f member => ⟨names _ (List.mem_map_of_mem member), fun text inside =>
    texts text (List.mem_flatMap.2 ⟨f.type, List.mem_map_of_mem member, inside⟩)⟩

end Pieces

end SchemaBindings.Binding
