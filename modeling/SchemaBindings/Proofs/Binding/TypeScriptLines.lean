import SchemaBindings.Proofs.Binding.Printable

/-! What is left of an item of a TypeScript module without doc comments: the item
that is written without descriptions. -/

namespace SchemaBindings.Binding

open Naming (IsIdentifier)
open Text (OneLine)

namespace TypeScriptModule

theorem oneLine_typeText {type : TypeExpr} (texts : ∀ text ∈ type.texts, OneLine text.toList) :
    OneLine (typeText type).toList := by
  have orNull {text : String} (nullable : Bool) (single : OneLine text.toList) :
      OneLine (orNull nullable text).toList := by
    cases nullable with
    | false => exact single
    | true =>
      rw [TypeScriptModule.orNull, if_pos rfl, String.toList_append]
      exact Text.oneLine_append.2 ⟨single, by decide⟩
  induction type with
  | verbatim text => exact texts text List.mem_cons_self
  | anything => exact (by decide : OneLine "any".toList)
  | primitive p nullable => exact orNull nullable (by cases p <;> decide)
  | elements container item nullable ih =>
    have inner := ih (List.forall_mem_append.1 texts).2
    refine orNull nullable ?_
    rw [listText]
    split
    · simp only [String.toList_append, Text.oneLine_append]
      exact ⟨⟨by decide, inner⟩, by decide⟩
    · simp only [String.toList_append, Text.oneLine_append]
      exact ⟨inner, by decide⟩
  | values container item nullable ih =>
    have inner := ih (List.forall_mem_append.1 texts).2
    refine orNull nullable ?_
    simp only [String.toList_append, Text.oneLine_append]
    exact ⟨⟨by decide, inner⟩, by decide⟩
  | declared id reference nullable => exact orNull nullable (texts _ List.mem_cons_self)

theorem begun_keyText (wireName : String) : Begun ("  " ++ keyText wireName) := by
  rw [keyText]
  split
  · rename_i plain
    unfold isIdentifier at plain
    split at plain
    · cases plain
    · rename_i c rest text
      simp only [Bool.and_eq_true, Bool.or_eq_true, List.all_eq_true, beq_iff_eq] at plain
      have start : c ≠ '\n' ∧ c ≠ ' ' ∧ c ≠ '\t' ∧ c ≠ '/' := by
        refine ⟨?_, ?_, ?_, ?_⟩ <;> rintro rfl <;> exact absurd plain.1 (by decide)
      refine begun_of_head (by decide) ?_ (by simp [text, isIndentation, start])
      rw [text]
      intro feed
      rcases List.mem_cons.1 feed with feed | feed
      · exact start.1 feed.symm
      · exact absurd (plain.2 _ feed) (by decide)
  · refine begun_of_head (by decide) (Text.oneLine_jsonString wireName) ?_
    rw [Text.jsonString, String.toList_ofList]
    rfl

theorem leaves_comment {indent : String} (blank : Blank indent.toList)
    (described : Option String) : Leaves .typescript (comment indent described) [] :=
  leaves_blockComment rfl blank _ described

theorem leaves_fieldLines {f : Field Unit} (printable : f.Printable) :
    Leaves .typescript (fieldLines f) (fieldLines f.undescribed) := by
  have mark : OneLine (if f.required then "" else "?").toList := by
    cases f.required <;> decide
  have line : Begun ("  " ++ keyText f.wireName ++ (if f.required then "" else "?") ++ ": " ++
      typeText f.type ++ ";") :=
    .append (.append (.append (.append (begun_keyText _) mark) (by decide))
      (oneLine_typeText printable.texts)) (by decide)
  exact (leaves_comment (by decide) f.described).append (leaves_begun line)

theorem leaves_choiceLines (c : Choice) (named : IsIdentifier c.constant) :
    Leaves .typescript (choiceLines c) (choiceLines c.undescribed) := by
  have line : Begun ("  " ++ c.constant ++ " = " ++ Text.jsonString c.value ++ ",") :=
    .append (.append (.append (begun_of_isIdentifier (by decide) named) (by decide))
      (Text.oneLine_jsonString _)) (by decide)
  exact (leaves_comment (by decide) c.described).append (leaves_begun line)

theorem leaves_interfaceLines {name : String} {tag : List String} {fields : List (Field Unit)}
    (named : IsIdentifier name) (tagged : ∀ line ∈ tag, Code line)
    (each : ∀ f ∈ fields, f.Printable) :
    Leaves .typescript (interfaceLines name tag fields)
      (interfaceLines name tag (fields.map Field.undescribed)) := by
  have head : Begun ("export interface " ++ name ++ " \x7b") :=
    .append (.append (by decide) (oneLine_of_isIdentifier named)) (by decide)
  rw [interfaceLines, interfaceLines, List.flatMap_map]
  exact (((leaves_begun head).append (leaves_codes tagged)).append
    (.flatMap fun f member => leaves_fieldLines (each f member))).append
      (leaves_code (by decide))

theorem leaves_bodyLines {d : Draft (Option String) Unit} (printable : d.Printable) :
    Leaves .typescript (bodyLines d.name d.extra d.body)
      (bodyLines d.name d.extra d.body.undescribed) := by
  obtain ⟨id, name, described, body, tag⟩ := d
  obtain ⟨named, names, texts⟩ := printable
  obtain ⟨types, references⟩ := List.forall_mem_append.1 texts
  have single := oneLine_of_isIdentifier named
  cases body with
  | record fields additional =>
    rw [bodyLines, Body.undescribed, Body.redescribe, bodyLines]
    exact leaves_interfaceLines named (List.forall_mem_nil _) (printable_of_fields names types)
  | variant base tagValue fields additional =>
    rw [bodyLines, Body.undescribed, Body.redescribe, bodyLines]
    refine leaves_interfaceLines named (List.forall_mem_map.2 fun t _ => ?_)
      (printable_of_fields names types)
    have line : Begun ("  " ++ keyText t ++ ": " ++ Text.jsonString tagValue ++ ";") :=
      .append (.append (.append (begun_keyText _) (by decide)) (Text.oneLine_jsonString _))
        (by decide)
    exact line.code
  | enumeration choices =>
    have head : Begun ("export enum " ++ name ++ " \x7b") :=
      .append (.append (by decide) single) (by decide)
    rw [bodyLines, Body.undescribed, Body.redescribe, bodyLines, List.flatMap_map]
    exact ((leaves_begun head).append (.flatMap fun c member =>
      leaves_choiceLines c (List.forall_mem_map.1 names c member))).append
        (leaves_code (by decide))
  | union _ cases' =>
    have alternatives : ∀ text ∈ (if cases'.isEmpty then ["never"]
        else cases'.map (·.reference.text)), OneLine text.toList := by
      split
      · decide
      · refine List.forall_mem_map.2 fun c member => references _ ?_
        exact List.mem_map_of_mem (List.mem_append_left _ (List.mem_map_of_mem member))
    exact leaves_begun (.append (.append (.append (.append (by decide) single) (by decide))
      (Text.oneLine_intercalate (by decide) alternatives)) (by decide))
  | wrapper inner =>
    rw [Body.types, List.flatMap_singleton] at types
    exact leaves_begun (.append (.append (.append (.append (by decide) single) (by decide))
      (oneLine_typeText types)) (by decide))

theorem leaves_itemLines {d : Draft (Option String) Unit} (printable : d.Printable) :
    Leaves .typescript (itemLines d) (itemLines d.undescribed) :=
  Leaves.append (.cons (leaves_code (by decide)) (leaves_comment (by decide) d.described))
    (leaves_bodyLines printable)

end TypeScriptModule

end SchemaBindings.Binding
