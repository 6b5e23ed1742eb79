import SchemaBindings.Proofs.Binding.Printable

/-! What is left of a class without doc comments: the class that is written without
descriptions. -/

namespace SchemaBindings.Binding

open Naming (IsIdentifier)
open Text (OneLine)

namespace JavaClasses

theorem oneLine_typeText {type : TypeExpr} (texts : ∀ text ∈ type.texts, OneLine text.toList) :
    OneLine (typeText type).toList := by
  induction type with
  | verbatim text => exact texts text List.mem_cons_self
  | anything => exact (by decide : OneLine "Object".toList)
  | primitive p nullable =>
    rw [typeText]
    cases p <;> decide
  | elements container item nullable ih =>
    obtain ⟨outer, inner⟩ := List.forall_mem_append.1 texts
    simp only [typeText, String.toList_append, Text.oneLine_append]
    exact ⟨⟨⟨oneLine_getD (by decide) outer, by decide⟩, ih inner⟩, by decide⟩
  | values container item nullable ih =>
    obtain ⟨outer, inner⟩ := List.forall_mem_append.1 texts
    simp only [typeText, String.toList_append, Text.oneLine_append]
    exact ⟨⟨⟨oneLine_getD (by decide) outer, by decide⟩, ih inner⟩, by decide⟩
  | declared id reference nullable => exact texts _ List.mem_cons_self

theorem oneLine_capitalized {name : String} (named : IsIdentifier name) :
    OneLine (capitalized name).toList := by
  have single := oneLine_of_isIdentifier named
  obtain ⟨c, rest, text, letter, -⟩ := named
  rw [text] at single
  have upper := Naming.isAlphanum_map (c := c) (by simp [Char.isAlphanum, letter])
  rw [capitalized, text]
  simp only [String.toList_ofList]
  intro feed
  rcases List.mem_cons.1 feed with feed | feed
  · rw [← feed] at upper
    exact absurd upper.2 (by decide)
  · exact single (List.mem_cons_of_mem _ feed)

theorem leaves_comment {indent : String} (blank : Blank indent.toList)
    (described : Option String) : Leaves .java (comment indent described) [] :=
  leaves_blockComment rfl blank _ described

theorem leaves_fieldLines {f : Field Unit} (printable : f.Printable) :
    Leaves .java (fieldLines f) (fieldLines f.undescribed) := by
  have property : Begun ("    @JsonProperty(" ++ Text.jsonString f.wireName ++ ")") :=
    .append (.append (by decide) (Text.oneLine_jsonString _)) (by decide)
  have declared : Begun ("    private " ++ typeText f.type ++ " " ++ f.name ++ ";") :=
    .append (.append (.append (.append (by decide) (oneLine_typeText printable.texts))
      (by decide)) (oneLine_of_isIdentifier printable.named)) (by decide)
  refine ((leaves_comment (by decide) f.described).append ?_).append ?_
  · exact leaves_codes (by cases f.required <;> decide)
  · exact .cons (leaves_begun property) (.cons (leaves_begun declared)
      (leaves_code (by decide)))

theorem leaves_accessorLines {name type : String} (named : IsIdentifier name)
    (typed : OneLine type.toList) (described : Option String) :
    Leaves .java (accessorLines name type described) (accessorLines name type none) := by
  have single := oneLine_of_isIdentifier named
  have big := oneLine_capitalized named
  have gets : Begun ("    public " ++ type ++ " get" ++ capitalized name ++ "() \x7b") :=
    .append (.append (.append (.append (by decide) typed) (by decide)) big) (by decide)
  have gives : Begun ("        return " ++ name ++ ";") :=
    .append (.append (by decide) single) (by decide)
  have sets : Begun ("    public void set" ++ capitalized name ++ "(" ++ type ++ " " ++ name ++
      ") \x7b") :=
    .append (.append (.append (.append (.append (.append (by decide) big) (by decide)) typed)
      (by decide)) single) (by decide)
  have takes : Begun ("        this." ++ name ++ " = " ++ name ++ ";") :=
    .append (.append (.append (.append (by decide) single) (by decide)) single) (by decide)
  have comment : Leaves .java (comment "    " described) [] := leaves_comment (by decide) described
  refine (((Leaves.append ?_ comment).append ?_).append comment).append ?_
  · exact leaves_code (by decide)
  · exact .cons (leaves_begun gets) (.cons (leaves_begun gives)
      (leaves_codes (by decide)))
  · exact .cons (leaves_begun sets) (.cons (leaves_begun takes)
      (leaves_codes (by decide)))

theorem leaves_choiceLines (c : Choice) (named : IsIdentifier c.constant) :
    Leaves .java (choiceLines c) (choiceLines c.undescribed) := by
  have property : Begun ("    @JsonProperty(" ++ Text.jsonString c.value ++ ")") :=
    .append (.append (by decide) (Text.oneLine_jsonString _)) (by decide)
  have constant : Begun ("    " ++ c.constant ++ ",") :=
    .append (begun_of_isIdentifier (by decide) named) (by decide)
  exact (leaves_comment (by decide) c.described).append
    (.cons (leaves_begun property) (leaves_begun constant))

theorem leaves_choicesLines {choices : List Choice}
    (named : ∀ c ∈ choices, IsIdentifier c.constant) :
    Leaves .java (choicesLines choices)
      (choicesLines (choices.map Choice.undescribed)) := by
  cases choices with
  | nil => exact .nil
  | cons c rest =>
    obtain ⟨first, later⟩ := List.forall_mem_cons.1 named
    rw [choicesLines, List.map_cons, choicesLines, List.flatMap_map]
    refine (leaves_choiceLines c first).append (.flatMap fun c member => ?_)
    exact .cons (leaves_code (by decide)) (leaves_choiceLines c (later c member))

theorem leaves_classLines {name : String} {base : Option String} {fields : List (Field Unit)}
    (named : IsIdentifier name) (based : ∀ text ∈ base.toList, OneLine text.toList)
    (each : ∀ f ∈ fields, f.Printable) (described : Option String)
    (additional : Bool) :
    Leaves .java (classLines name described base fields additional)
      (classLines name none base (fields.map Field.undescribed) additional) := by
  have single := oneLine_of_isIdentifier named
  have constructor : Begun ("    public " ++ name ++ "() \x7b") :=
    .append (.append (by decide) single) (by decide)
  simp only [classLines, List.flatMap_map]
  refine ((((((leaves_comment (by decide) described).append ?_).append ?_).append ?_).append
    ?_).append ?_).append ?_ |>.append ?_
  · exact leaves_code (by decide)
  · exact leaves_codes (by cases additional <;> decide)
  · refine leaves_begun (.append (.append (.append (by decide) single) ?_) (by decide))
    cases base with
    | none => exact List.not_mem_nil
    | some text =>
      rw [String.toList_append]
      exact Text.oneLine_append.2 ⟨by decide, based text List.mem_cons_self⟩
  · exact .flatMap fun f member => leaves_fieldLines (each f member)
  · exact .cons (leaves_begun constructor) (leaves_code (by decide))
  · exact .flatMap fun f member => leaves_accessorLines (each f member).named
      (oneLine_typeText (each f member).texts) f.described
  · exact leaves_code (by decide)

theorem leaves_wrapperLines {name type : String} (named : IsIdentifier name)
    (typed : OneLine type.toList) (described : Option String) :
    Leaves .java (wrapperLines name described type) (wrapperLines name none type) := by
  have single := oneLine_of_isIdentifier named
  have head : Begun ("public class " ++ name ++ " \x7b") :=
    .append (.append (by decide) single) (by decide)
  have value : Begun ("    private " ++ type ++ " value;") :=
    .append (.append (by decide) typed) (by decide)
  have constructor : Begun ("    public " ++ name ++ "() \x7b") :=
    .append (.append (by decide) single) (by decide)
  have creator : Begun ("    public " ++ name ++ "(" ++ type ++ " value) \x7b") :=
    .append (.append (.append (.append (by decide) single) (by decide)) typed) (by decide)
  have value' : IsIdentifier "value" := by decide
  refine (((leaves_comment (by decide) described).append ?_).append
    (leaves_accessorLines value' typed none)).append
    (leaves_code (by decide))
  exact .cons (leaves_begun head) (.cons (leaves_code (by decide))
    (.cons (leaves_begun value) (.cons (leaves_code (by decide))
      (.cons (leaves_begun constructor) (.cons (leaves_code (by decide))
        (.cons (leaves_code (by decide)) (.cons (leaves_code (by decide))
          (.cons (leaves_begun creator) (leaves_codes (by decide))))))))))

theorem begun_caseLine {c : Case} (single : OneLine c.reference.text.toList) :
    Begun (caseLine c) :=
  .append (.append (.append (.append (by decide) (Text.oneLine_jsonString _)) (by decide)) single)
    (by decide)

theorem leaves_bodyLines {d : Draft Unit Unit} (printable : d.Printable) :
    Leaves .java (bodyLines d.name d.described d.body)
      (bodyLines d.name none d.body.undescribed) := by
  obtain ⟨id, name, described, body, extra⟩ := d
  obtain ⟨named, names, texts⟩ := printable
  obtain ⟨types, references⟩ := List.forall_mem_append.1 texts
  have comment : Leaves .java (comment "" described) [] := leaves_comment (by decide) described
  have single := oneLine_of_isIdentifier named
  cases body with
  | record fields additional =>
    rw [bodyLines, Body.undescribed, Body.redescribe, bodyLines]
    exact leaves_classLines named (List.forall_mem_nil _) (printable_of_fields names types)
      described additional
  | variant base tagValue fields additional =>
    rw [bodyLines, Body.undescribed, Body.redescribe, bodyLines]
    have based : ∀ text ∈ (some base.text).toList, OneLine text.toList :=
      List.forall_mem_singleton.2 (references _ (List.mem_map_of_mem List.mem_cons_self))
    exact leaves_classLines named based (printable_of_fields names types) described additional
  | enumeration choices =>
    have head : Begun ("public enum " ++ name ++ " \x7b") :=
      .append (.append (by decide) single) (by decide)
    exact ((comment.append (leaves_begun head)).append
      (leaves_choicesLines (List.forall_mem_map.1 names))).append (leaves_code (by decide))
  | union tag cases' =>
    have info : Begun ("@JsonTypeInfo(use = JsonTypeInfo.Id.NAME, property = " ++
        Text.jsonString tag ++ ")") :=
      .append (.append (by decide) (Text.oneLine_jsonString _)) (by decide)
    have head : Begun ("public abstract class " ++ name ++ " \x7b") :=
      .append (.append (by decide) single) (by decide)
    refine ((comment.append (.cons (leaves_begun info) (leaves_code (by decide)))).append
      (leaves_codes ?_)).append (.cons (leaves_code (by decide))
        (.cons (leaves_begun head) (leaves_code (by decide))))
    refine List.forall_mem_map.2 fun c member => (begun_caseLine (references _ ?_)).code
    exact List.mem_map_of_mem (List.mem_append_left _ (List.mem_map_of_mem member))
  | wrapper inner =>
    rw [Body.types, List.flatMap_singleton] at types
    exact leaves_wrapperLines named (oneLine_typeText types) described

end JavaClasses

end SchemaBindings.Binding
