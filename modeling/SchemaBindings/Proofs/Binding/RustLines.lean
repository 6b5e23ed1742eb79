import SchemaBindings.Proofs.Binding.Printable
import SchemaBindings.Proofs.Binding.RustDerives

/-! What is left of an item of a Rust module without doc comments: the item that is
written without descriptions. -/

namespace SchemaBindings.Binding

open Naming (IsIdentifier)
open Text (OneLine)

namespace RustModule

section Types

variable {c : Char} (control : c.toNat < 0x20)

include control

/-- What is written around a type is visible. -/
theorem not_mem_optional {nullable : Bool} {text : String} (missing : c ∉ text.toList) :
    c ∉ (optional nullable text).toList := by
  cases nullable with
  | false => exact missing
  | true => exact Text.not_mem_around control (by decide) missing

/-- A control character in the text of a type comes from one of the texts in it. -/
theorem not_mem_typeText {boxed : Nat → Bool} {type : TypeExpr}
    (texts : ∀ text ∈ type.texts, c ∉ text.toList) : c ∉ (typeText boxed type).toList := by
  have own {word : String} (visible : Text.Visible word.toList) : c ∉ word.toList :=
    visible.not_mem control
  induction type generalizing boxed with
  | verbatim text => exact texts text List.mem_cons_self
  | anything => exact own (by decide : Text.Visible "serde_json::Value".toList)
  | primitive p nullable => exact not_mem_optional control (own (by cases p <;> decide))
  | elements container item nullable ih =>
    obtain ⟨outer, inner⟩ := List.forall_mem_append.1 texts
    refine not_mem_optional control ?_
    simp only [String.toList_append, List.mem_append, not_or]
    exact ⟨⟨⟨not_mem_getD (own (by decide)) outer, own (by decide)⟩, ih inner⟩, own (by decide)⟩
  | values container item nullable ih =>
    obtain ⟨outer, inner⟩ := List.forall_mem_append.1 texts
    refine not_mem_optional control ?_
    simp only [String.toList_append, List.mem_append, not_or]
    exact ⟨⟨⟨not_mem_getD (own (by decide)) outer, own (by decide)⟩, ih inner⟩, own (by decide)⟩
  | declared id reference nullable =>
    have missing := texts _ List.mem_cons_self
    refine not_mem_optional control ?_
    split
    · exact Text.not_mem_around control (by decide) missing
    · exact missing

theorem not_mem_fieldType (boxed : Nat → Bool) {f : Field Unit}
    (texts : ∀ text ∈ f.type.texts, c ∉ text.toList) : c ∉ (fieldType boxed f).toList :=
  not_mem_optional control (not_mem_typeText control texts)

end Types

theorem oneLine_typeText {boxed : Nat → Bool} {type : TypeExpr}
    (texts : ∀ text ∈ type.texts, OneLine text.toList) :
    OneLine (typeText boxed type).toList :=
  not_mem_typeText (by decide) texts

theorem leaves_comment (described : Option String) :
    Leaves .rust (lineComment "/// " described) [] :=
  leaves_lineComment judged_rust (by decide) (fun _ => rfl) (by decide) described

theorem leaves_innerComment (described : Option String) :
    Leaves .rust (lineComment "    /// " described) [] :=
  leaves_lineComment judged_rust (by decide) (fun _ => rfl) (by decide) described

theorem begun_renameLine (wireName : String) : Begun (renameLine "    " wireName) := by
  have start : Begun ("    " ++ "#[serde(rename = \"") := by decide
  exact .append (.append start (Text.oneLine_asciiEscaped _)) (by decide)

theorem leaves_fieldLines (boxed : Nat → Bool) {f : Field Unit} (printable : f.Printable) :
    Leaves .rust (fieldLines boxed f) (fieldLines boxed f.undescribed) := by
  have declared : Begun ("    pub " ++ f.name ++ ": " ++ fieldType boxed f ++ ",") :=
    .append (.append (.append (.append (by decide) (oneLine_of_isIdentifier printable.named))
      (by decide)) (not_mem_fieldType (by decide) boxed printable.texts)) (by decide)
  refine (((leaves_innerComment f.described).append ?_).append ?_).append (leaves_begun declared)
  · refine leaves_codes ?_
    split
    · exact List.forall_mem_nil _
    · exact List.forall_mem_singleton.2 (begun_renameLine _).code
  · exact leaves_codes (by cases f.required <;> decide)

theorem leaves_structLines (boxed : Nat → Bool) {name : String} {fields : List (Field Unit)}
    (named : IsIdentifier name) (each : ∀ f ∈ fields, f.Printable) :
    Leaves .rust (structLines boxed name fields)
      (structLines boxed name (fields.map Field.undescribed)) := by
  have head : Begun ("pub struct " ++ name ++ " \x7b") :=
    .append (.append (by decide) (oneLine_of_isIdentifier named)) (by decide)
  rw [structLines, structLines, List.flatMap_map]
  exact ((leaves_begun head).append (.flatMap fun f member =>
    leaves_fieldLines boxed (each f member))).append (leaves_code (by decide))

theorem leaves_choiceLines (c : Choice) (named : IsIdentifier c.constant) :
    Leaves .rust (choiceLines c) (choiceLines c.undescribed) := by
  have constant : Begun ("    " ++ c.constant ++ ",") :=
    .append (begun_of_isIdentifier (by decide) named) (by decide)
  exact (leaves_innerComment c.described).append
    (.cons (leaves_begun (begun_renameLine _)) (leaves_begun constant))

theorem leaves_caseLines (c : Case) (named : IsIdentifier c.constant)
    (single : OneLine c.reference.text.toList) : Leaves .rust (caseLines c) (caseLines c) := by
  have line : Begun ("    " ++ c.constant ++ "(" ++ c.reference.text ++ "),") :=
    .append (.append (.append (begun_of_isIdentifier (by decide) named) (by decide)) single)
      (by decide)
  exact .cons (leaves_begun (begun_renameLine _)) (leaves_begun line)

theorem leaves_bodyLines (boxed : Nat → Bool) {d : Draft (List String) Unit}
    (printable : d.Printable) :
    Leaves .rust (bodyLines boxed d.name d.body) (bodyLines boxed d.name d.body.undescribed) := by
  obtain ⟨id, name, described, body, extra⟩ := d
  obtain ⟨named, names, texts⟩ := printable
  obtain ⟨types, references⟩ := List.forall_mem_append.1 texts
  have single := oneLine_of_isIdentifier named
  cases body with
  | record fields additional =>
    rw [bodyLines, Body.undescribed, Body.redescribe, bodyLines]
    refine (leaves_codes ?_).append
      (leaves_structLines boxed named (printable_of_fields names types))
    cases additional <;> decide
  | variant base tagValue fields additional =>
    exact leaves_structLines boxed named (printable_of_fields names types)
  | enumeration choices =>
    have head : Begun ("pub enum " ++ name ++ " \x7b") :=
      .append (.append (by decide) single) (by decide)
    rw [bodyLines, Body.undescribed, Body.redescribe, bodyLines, List.flatMap_map]
    exact ((leaves_begun head).append (.flatMap fun c member =>
      leaves_choiceLines c (names _ (List.mem_map_of_mem member)))).append
        (leaves_code (by decide))
  | union tag cases' =>
    have tagged : Begun ("#[serde(tag = \"" ++ Text.asciiEscaped tag ++ "\")]") :=
      .append (.append (by decide) (Text.oneLine_asciiEscaped _)) (by decide)
    have head : Begun ("pub enum " ++ name ++ " \x7b") :=
      .append (.append (by decide) single) (by decide)
    refine ((Leaves.cons (leaves_begun tagged) (leaves_begun head)).append
      (.flatMap fun c member => ?_)).append (leaves_code (by decide))
    refine leaves_caseLines c ?_ ?_
    · exact names _ (List.mem_append_right _ (List.mem_map_of_mem member))
    · exact references _ (List.mem_map_of_mem
        (List.mem_append_left _ (List.mem_map_of_mem member)))
  | wrapper inner =>
    rw [Body.types, List.flatMap_singleton] at types
    have line : Begun ("pub struct " ++ name ++ "(pub " ++ typeText boxed inner ++ ");") :=
      .append (.append (.append (.append (by decide) single) (by decide))
        (oneLine_typeText types)) (by decide)
    exact .cons (leaves_code (by decide)) (leaves_begun line)

theorem leaves_itemLines (edges : List (List Nat)) {d : Draft (List String) Unit}
    (printable : d.Printable) (derived : ∀ path ∈ d.extra, Text.Visible path.toList) :
    Leaves .rust (itemLines edges d) (itemLines edges d.undescribed) := by
  have derives : Begun (deriveLine d.extra) := by
    refine .append (.append (by decide) (Text.oneLine_intercalate (by decide) ?_)) (by decide)
    exact List.forall_mem_append.2 ⟨by decide, fun path listed =>
      Text.oneLine_of_visible (derived path listed)⟩
  exact (((leaves_comment d.described).append (leaves_begun derives)).append
    (leaves_bodyLines _ printable)).append (leaves_code (by decide))

section Derives

theorem visible_of_isMacroPath {entry : String} (path : IsMacroPath entry) :
    Text.Visible entry.toList := by
  intro c member
  rcases path.isListChar c member with word | rfl | rfl | rfl | rfl
  · exact visible_of_word (.inl word)
  all_goals decide

/-- What is derived is a path, whatever the hint says. -/
theorem visible_of_derives {d : Declaration} {extra : List String} (read : derives d = .ok extra) :
    ∀ path ∈ extra, Text.Visible path.toList := by
  obtain ⟨hint, hintRead, rest⟩ := (bind_eq_ok ..).1 read
  cases hint with
  | none =>
    cases rest
    exact List.forall_mem_nil _
  | some text =>
    obtain ⟨rfl, paths⟩ := (derives_eq_ok_iff (string?_eq_some.1 hintRead) extra).1 read
    exact fun entry listed => visible_of_isMacroPath (paths entry listed)

theorem derived_of_drafts {c : NamedCatalog} {drafts : List (Draft (List String) Unit)}
    (read : rules.drafts c = .ok drafts) :
    ∀ d ∈ drafts, ∀ path ∈ d.extra, Text.Visible path.toList := by
  intro d member
  obtain ⟨_, _, _, -, -, drafted⟩ := exists_of_mem_drafts read member
  exact visible_of_derives (extra_of_draft drafted)

end Derives

/-- A module is the lines of its drafts behind a notice. -/
theorem files_eq (c : NamedCatalog) :
    files c = rules.drafts c >>= fun drafts => pure [⟨"mod.rs", Text.unlines
      (["//! " ++ notice, ""] ++ drafts.flatMap (itemLines (holdings c.catalog)))⟩] := by
  simp only [Text.unlines_append, files, items, bind_assoc, pure_bind]

end RustModule

end SchemaBindings.Binding
