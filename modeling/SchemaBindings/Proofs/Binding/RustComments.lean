import SchemaBindings.Proofs.Binding.CommentBounds
import SchemaBindings.Proofs.Binding.MemberFields
import SchemaBindings.Proofs.Text.CarriageReturns

/-! Carriage returns in a Rust module. Names, escaped texts and the words of the language have no
control characters, so a return stands in a comment, or comes from the text of a hint. -/

namespace SchemaBindings

/-- Some description of a declaration, its own or one inside it, has a return between ink. -/
def Declaration.Stranded (d : Declaration) : Prop :=
  ∃ text, some text ∈ d.descriptions ∧ Text.Stranded text.toList

instance (d : Declaration) : Decidable d.Stranded :=
  decidable_of_iff (∃ text ∈ d.descriptions.filterMap id, Text.Stranded text.toList) (by
    simp [Declaration.Stranded])

namespace Binding.RustModule

open Catalog (Suppressed)
open Naming (IsIdentifier)
open Text (OneLine Stranded Visible physical splitAtEach)

section Strays

variable {c : Char}

/-- The lines that the character stands in. -/
def strays (c : Char) (lines : List String) : List String :=
  lines.filter fun line => decide (c ∈ line.toList)

theorem mem_strays {lines : List String} {line : String} :
    line ∈ strays c lines ↔ line ∈ lines ∧ c ∈ line.toList := by
  simp [strays]

theorem strays_append (xs ys : List String) : strays c (xs ++ ys) = strays c xs ++ strays c ys :=
  List.filter_append ..

theorem strays_eq_nil {lines : List String} (missing : ∀ line ∈ lines, c ∉ line.toList) :
    strays c lines = [] :=
  List.filter_eq_nil_iff.2 fun line member => by simpa using missing line member

theorem strays_flatMap {α : Type} {entries : List α} {f g : α → List String}
    (each : ∀ entry ∈ entries, strays c (f entry) = strays c (g entry)) :
    strays c (entries.flatMap f) = strays c (entries.flatMap g) := by
  induction entries with
  | nil => rfl
  | cons entry rest ih =>
    obtain ⟨first, later⟩ := List.forall_mem_cons.1 each
    rw [List.flatMap_cons, List.flatMap_cons, strays_append, strays_append, first, ih later]

end Strays

section Items

/-- The comments inside an item. -/
def innerComments (described : List (Option String)) : List String :=
  described.flatMap (lineComment "    /// ")

/-- The comments of an item. -/
def comments (d : Draft (List String) Unit) : List String :=
  lineComment "/// " d.described ++ innerComments d.body.descriptions

theorem visible_renameLine (wireName : String) :
    Visible (renameLine "    " wireName).toList :=
  Text.visible_around (by decide) (Text.visible_asciiEscaped _)

variable {c : Char} (control : c.toNat < 0x20)

include control

theorem strays_of_visible {lines : List String} (visible : ∀ line ∈ lines, Visible line.toList) :
    strays c lines = [] :=
  strays_eq_nil fun line member => (visible line member).not_mem control

theorem strays_fieldLines (boxed : Nat → Bool) {f : Field Unit} (named : IsIdentifier f.name)
    (texts : ∀ text ∈ f.type.texts, c ∉ text.toList) :
    strays c (fieldLines boxed f) = strays c (lineComment "    /// " f.described) := by
  have renamed : strays c (if f.name = f.wireName then [] else [renameLine "    " f.wireName]) =
      [] := by
    refine strays_of_visible control ?_
    split
    · exact List.forall_mem_nil _
    · exact List.forall_mem_singleton.2 (visible_renameLine _)
  have skipped : strays c (if f.required then []
      else ["    #[serde(default, skip_serializing_if = \"Option::is_none\")]"]) = [] :=
    strays_of_visible control (by cases f.required <;> decide)
  have declared : strays c ["    pub " ++ f.name ++ ": " ++ fieldType boxed f ++ ","] = [] := by
    have start : Visible ("    pub " ++ f.name ++ ": ").toList :=
      Text.visible_around (by decide) (visible_of_isIdentifier named)
    exact strays_eq_nil (List.forall_mem_singleton.2 (Text.not_mem_around control
      ⟨start, by decide⟩ (not_mem_fieldType control boxed texts)))
  rw [fieldLines, strays_append, strays_append, strays_append, renamed, skipped, declared,
    List.append_nil, List.append_nil, List.append_nil]

theorem strays_structLines (boxed : Nat → Bool) {name : String} {fields : List (Field Unit)}
    (named : IsIdentifier name) (names : ∀ name ∈ fields.map Field.name, IsIdentifier name)
    (texts : ∀ text ∈ (fields.map Field.type).flatMap TypeExpr.texts, c ∉ text.toList) :
    strays c (structLines boxed name fields) =
      strays c (innerComments (fields.map Field.described)) := by
  have head : strays c ["pub struct " ++ name ++ " \x7b"] = [] :=
    strays_of_visible control (List.forall_mem_singleton.2
      (Text.visible_around (by decide) (visible_of_isIdentifier named)))
  have close : strays c ["\x7d"] = [] := strays_of_visible control (by decide)
  rw [structLines, strays_append, strays_append, head, close, List.nil_append, List.append_nil,
    innerComments, List.flatMap_map]
  refine strays_flatMap fun f member => strays_fieldLines control boxed
    (names _ (List.mem_map_of_mem member)) fun text inside => ?_
  exact texts text (List.mem_flatMap.2 ⟨f.type, List.mem_map_of_mem member, inside⟩)

theorem strays_choiceLines {k : Choice} (named : IsIdentifier k.constant) :
    strays c (choiceLines k) = strays c (lineComment "    /// " k.described) := by
  have constant : Visible ("    " ++ k.constant ++ ",").toList :=
    Text.visible_around (by decide) (visible_of_isIdentifier named)
  rw [choiceLines, strays_append, strays_of_visible control (List.forall_mem_cons.2
    ⟨visible_renameLine _, List.forall_mem_singleton.2 constant⟩), List.append_nil]

theorem strays_caseLines {k : Case} (named : IsIdentifier k.constant)
    (text : c ∉ k.reference.text.toList) : strays c (caseLines k) = [] := by
  have start : Visible ("    " ++ k.constant ++ "(").toList :=
    Text.visible_around (by decide) (visible_of_isIdentifier named)
  exact strays_eq_nil (List.forall_mem_cons.2 ⟨(visible_renameLine _).not_mem control,
    List.forall_mem_singleton.2 (Text.not_mem_around control ⟨start, by decide⟩ text)⟩)

theorem strays_bodyLines (boxed : Nat → Bool) {name : String} {body : Body Unit}
    (named : IsIdentifier name) (names : ∀ name ∈ body.names, IsIdentifier name)
    (texts : ∀ text ∈ body.texts, c ∉ text.toList) :
    strays c (bodyLines boxed name body) = strays c (innerComments body.descriptions) := by
  obtain ⟨types, references⟩ := List.forall_mem_append.1 texts
  have head : Visible ("pub enum " ++ name ++ " \x7b").toList :=
    Text.visible_around (by decide) (visible_of_isIdentifier named)
  have close : strays c ["\x7d"] = [] := strays_of_visible control (by decide)
  cases body with
  | record fields additional =>
    have strict : strays c (if additional then [] else ["#[serde(deny_unknown_fields)]"]) = [] :=
      strays_of_visible control (by cases additional <;> decide)
    rw [bodyLines, strays_append, strict]
    exact strays_structLines control boxed named names types
  | variant base tagValue fields additional =>
    exact strays_structLines control boxed named names types
  | enumeration choices =>
    rw [bodyLines, strays_append, strays_append, close,
      strays_of_visible control (List.forall_mem_singleton.2 head), List.nil_append,
      List.append_nil, Body.descriptions, innerComments, List.flatMap_map]
    exact strays_flatMap fun k member =>
      strays_choiceLines control (names _ (List.mem_map_of_mem member))
  | union tag cases' =>
    have tagged : Visible ("#[serde(tag = \"" ++ Text.asciiEscaped tag ++ "\")]").toList :=
      Text.visible_around (by decide) (Text.visible_asciiEscaped _)
    have inner : strays c (cases'.flatMap caseLines) = strays c (cases'.flatMap fun _ => []) := by
      refine strays_flatMap fun k member => strays_caseLines control ?_ ?_
      · exact names _ (List.mem_append_right _ (List.mem_map_of_mem member))
      · exact references _ (List.mem_map_of_mem
          (List.mem_append_left _ (List.mem_map_of_mem member)))
    rw [bodyLines, strays_append, strays_append, close, inner,
      strays_of_visible control (List.forall_mem_cons.2
        ⟨tagged, List.forall_mem_singleton.2 head⟩)]
    simp [Body.descriptions, innerComments, strays]
  | wrapper inner =>
    rw [Body.types, List.flatMap_singleton] at types
    have start : Visible ("pub struct " ++ name ++ "(pub ").toList :=
      Text.visible_around (by decide) (visible_of_isIdentifier named)
    have transparent : Visible "#[serde(transparent)]".toList := by decide
    exact strays_eq_nil (List.forall_mem_cons.2 ⟨transparent.not_mem control,
      List.forall_mem_singleton.2 (Text.not_mem_around control ⟨start, by decide⟩
        (not_mem_typeText control types))⟩)

/-- Of the lines of an item, a control character stands in those of its comments alone. -/
theorem strays_itemLines (edges : List (List Nat)) {d : Draft (List String) Unit}
    (spelled : d.Spelled IsIdentifier (c ∉ ·.toList))
    (derived : ∀ path ∈ d.extra, Visible path.toList) :
    strays c (itemLines edges d) = strays c (comments d) := by
  have paths : Visible (String.intercalate ", "
      (["Debug", "Clone", "serde::Serialize", "serde::Deserialize"] ++ d.extra)).toList := by
    intro char member
    rcases Text.mem_intercalate member with between | ⟨path, listed, inside⟩
    · exact (by decide : Visible ", ".toList) char between
    · exact List.forall_mem_append.2 ⟨by decide, derived⟩ path listed char inside
  have derives : strays c [deriveLine d.extra] = [] :=
    strays_of_visible control (List.forall_mem_singleton.2 (Text.visible_around (by decide) paths))
  have last : strays c [""] = [] := strays_of_visible control (by decide)
  have body := strays_bodyLines control (closesCycle edges d.id) spelled.name spelled.names
    spelled.texts
  rw [itemLines, comments, strays_append, strays_append, strays_append, strays_append, derives,
    last, body, List.append_nil, List.append_nil]

end Items

section Documentation

theorem mem_commentLine_iff {c : Char} {lead line : String} (missing : c ∉ lead.toList) :
    c ∈ (commentLine lead line).toList ↔ c ∈ line.toList := by
  rw [commentLine]
  split
  · rename_i empty
    have bare : c ∉ Unicode.trimEnd lead.toList := fun inside =>
      missing (Text.mem_of_mem_trimEnd inside)
    rw [String.toList_ofList, String.isEmpty_iff.1 empty]
    exact iff_of_false bare List.not_mem_nil
  · rw [String.toList_append, List.mem_append]
    exact or_iff_right missing

theorem exists_mem_lineComment_iff (lead : String) (missing : '\r' ∉ lead.toList)
    {described : Option String} :
    (∃ line ∈ lineComment lead described, '\r' ∈ line.toList) ↔
      ∃ text, described = some text ∧ Stranded text.toList := by
  cases described with
  | none => simp [lineComment]
  | some description =>
    have own : (∃ line ∈ lineComment lead (some description), '\r' ∈ line.toList) ↔
        Stranded description.toList := by
      rw [lineComment, ← Text.exists_mem_descriptionLines_iff description lead.utf8ByteSize]
      simp [mem_commentLine_iff missing]
    simp [own]

theorem exists_mem_comments_iff {d : Draft (List String) Unit} :
    (∃ line ∈ comments d, '\r' ∈ line.toList) ↔
      ∃ text, some text ∈ d.descriptions ∧ Stranded text.toList := by
  constructor
  · rintro ⟨line, member, inside⟩
    rcases List.mem_append.1 member with own | inner
    · obtain ⟨text, described, stranded⟩ :=
        (exists_mem_lineComment_iff _ (by decide)).1 ⟨line, own, inside⟩
      exact ⟨text, described ▸ List.mem_cons_self, stranded⟩
    · obtain ⟨described, listed, own⟩ := List.mem_flatMap.1 inner
      obtain ⟨text, rfl, stranded⟩ :=
        (exists_mem_lineComment_iff _ (by decide)).1 ⟨line, own, inside⟩
      exact ⟨text, List.mem_cons_of_mem _ listed, stranded⟩
  · rintro ⟨text, listed, stranded⟩
    rcases List.mem_cons.1 listed with described | inner
    · obtain ⟨line, member, inside⟩ :=
        (exists_mem_lineComment_iff "/// " (by decide)).2 ⟨text, rfl, stranded⟩
      exact ⟨line, List.mem_append_left _ (described ▸ member), inside⟩
    · obtain ⟨line, member, inside⟩ :=
        (exists_mem_lineComment_iff "    /// " (by decide)).2 ⟨text, rfl, stranded⟩
      exact ⟨line, List.mem_append_right _ (List.mem_flatMap.2 ⟨_, inner, member⟩), inside⟩

theorem doc_of_mem_lineComment {lead : String} (single : OneLine lead.toList)
    (led : ∀ more, isRustDoc (Unicode.trimEnd lead.toList ++ more) = true)
    {described : Option String} {line : String} (member : line ∈ lineComment lead described) :
    OneLine line.toList ∧ isRustDoc line.toList = true := by
  cases described with
  | none => cases member
  | some description =>
    obtain ⟨text, wrapped, rfl⟩ := List.mem_map.1 member
    refine ⟨oneLine_commentLine single (Text.oneLine_descriptionLines wrapped), ?_⟩
    obtain ⟨more, same⟩ := prefix_commentLine lead text
    exact same ▸ led more

theorem doc_of_mem_comments {d : Draft (List String) Unit} {line : String}
    (member : line ∈ comments d) : OneLine line.toList ∧ isRustDoc line.toList = true := by
  rcases List.mem_append.1 member with own | inner
  · exact doc_of_mem_lineComment (by decide) (fun _ => rfl) own
  · obtain ⟨described, -, own⟩ := List.mem_flatMap.1 inner
    exact doc_of_mem_lineComment (by decide) (fun _ => rfl) own

/-- A return is in a doc comment of an item when a description has it between ink. -/
theorem exists_doc_iff (edges : List (List Nat)) {d : Draft (List String) Unit}
    (spelled : d.Spelled IsIdentifier ('\r' ∉ ·.toList))
    (derived : ∀ path ∈ d.extra, Visible path.toList) :
    (∃ line ∈ physical (itemLines edges d), isRustDoc line = true ∧ '\r' ∈ line) ↔
      ∃ text, some text ∈ d.descriptions ∧ Stranded text.toList := by
  have strays := strays_itemLines (by decide) edges spelled derived
  rw [← exists_mem_comments_iff]
  constructor
  · rintro ⟨piece, printed, -, inside⟩
    obtain ⟨line, listed, part⟩ := List.mem_flatMap.1 printed
    have own := (Text.isInfix_of_mem_splitAtEach part).subset inside
    exact ⟨line, (mem_strays.1 (strays ▸ mem_strays.2 ⟨listed, own⟩)).1, own⟩
  · rintro ⟨line, member, inside⟩
    obtain ⟨single, doc⟩ := doc_of_mem_comments member
    have listed := (mem_strays.1 (strays ▸ mem_strays.2 ⟨member, inside⟩)).1
    refine ⟨line.toList, List.mem_flatMap.2 ⟨line, listed, ?_⟩, doc, inside⟩
    rw [Text.splitAtEach_of_oneLine single]
    exact List.mem_singleton_self _

/-- Besides its items a module has a notice, in which there is no return. -/
theorem exists_doc_unlines_iff (edges : List (List Nat)) {drafts : List (Draft (List String) Unit)}
    (spelled : ∀ d ∈ drafts, d.Spelled IsIdentifier ('\r' ∉ ·.toList))
    (derived : ∀ d ∈ drafts, ∀ path ∈ d.extra, Visible path.toList) :
    (∃ line ∈ splitAtEach (· == '\n')
        (Text.unlines (["//! " ++ notice, ""] ++ drafts.flatMap (itemLines edges))).toList,
      isRustDoc line = true ∧ '\r' ∈ line) ↔
      ∃ d ∈ drafts, ∃ text, some text ∈ d.descriptions ∧ Stranded text.toList := by
  have head : ∀ line ∈ physical ["//! " ++ notice, ""], '\r' ∉ line := by decide
  rw [Text.splitAtEach_unlines, Text.physical_append, Text.physical_flatMap]
  constructor
  · rintro ⟨line, member, doc, inside⟩
    rcases List.mem_append.1 member with member | last
    · rcases List.mem_append.1 member with first | later
      · exact absurd inside (head line first)
      · obtain ⟨d, listed, own⟩ := List.mem_flatMap.1 later
        exact ⟨d, listed, (exists_doc_iff edges (spelled d listed) (derived d listed)).1
          ⟨line, own, doc, inside⟩⟩
    · rw [List.mem_singleton.1 last] at inside
      cases inside
  · rintro ⟨d, listed, stranded⟩
    obtain ⟨line, own, doc, inside⟩ :=
      (exists_doc_iff edges (spelled d listed) (derived d listed)).2 stranded
    exact ⟨line, List.mem_append_left _ (List.mem_append_right _
      (List.mem_flatMap.2 ⟨d, listed, own⟩)), doc, inside⟩

end Documentation

section Modules

variable {document : Json} {schema : Schema} (read : Schema.ofJson document = .ok schema)
  (plain : ∀ node, Schema.Contains schema node → ∀ key ∈ ["rustType", "rustContainer"], ∀ text,
    node.metadata.hint? key = some (.string text) → '\r' ∉ text.toList)
  (rootName package : String) (rendered : Rendered)
  (renders : Target.render ⟨.rust, package⟩ (Catalog.ofSchema schema rootName) = .ok rendered)

include read plain renders

/-- A doc comment of a module has a return when a description of a draft has one between ink. -/
theorem exists_return_iff_draft :
    ∃ drafts, rules.drafts (namedFor .rust schema rootName) = .ok drafts ∧
      ((∃ file ∈ rendered.files, ∃ line ∈ splitAtEach (· == '\n') file.contents.toList,
          isRustDoc line = true ∧ '\r' ∈ line) ↔
        ∃ d ∈ drafts, ∃ text, some text ∈ d.descriptions ∧ Stranded text.toList) := by
  have mirrors := Catalog.mirrors_ofSchema (Schema.regular_of_ofJson read) rootName
  have each : ∀ n ∈ (namedFor .rust schema rootName).names, n.Each IsIdentifier := fun n member =>
    (Naming.each_resolve (Naming.regular_naming .rust).ensures _ n member).imp
      fun _ legal => legal.identifier
  have hinted : ∀ node, Schema.Contains schema node →
      HintTexts hints.all ('\r' ∉ ·.toList) node.metadata := plain
  have texts : Texts hints ('\r' ∉ ·.toList) (namedFor .rust schema rootName) :=
    texts_of_mirrors mirrors hinted (typeName_of_each List.not_mem_nil fun n member =>
      (each n member).imp fun _ named => (visible_of_isIdentifier named).not_mem (by decide))
  obtain ⟨drafts, drafted, printed⟩ := exists_drafts_of_render renders
  refine ⟨drafts, drafted, ?_⟩
  simp only [printed, List.mem_singleton, exists_eq_left]
  exact exists_doc_unlines_iff _ (spelled_of_drafts texts each drafted) (derived_of_drafts drafted)

/-- Carriage returns in doc comments. When no hint for a type or a container has a return, a doc
comment of a Rust module has one exactly when a declaration that is written has a description, its
own or of a member or a value, with a return between ink: behind some ink of the text, and before
some ink of the line. -/
theorem exists_return_iff_stranded :
    (∃ file ∈ rendered.files, ∃ line ∈ splitAtEach (· == '\n') file.contents.toList,
        isRustDoc line = true ∧ '\r' ∈ line) ↔
      ∃ d ∈ (Catalog.ofSchema schema rootName).declarations,
        ¬ Suppressed "rustType" (Catalog.ofSchema schema rootName) d.id ∧ d.Stranded := by
  have linked := Catalog.linked_ofSchema schema rootName
  have mirrors := Catalog.mirrors_ofSchema (Schema.regular_of_ofJson read) rootName
  obtain ⟨drafts, drafted, printed⟩ :=
    exists_return_iff_draft read plain rootName package rendered renders
  rw [printed]
  exact exists_descriptions_iff mirrors linked drafted
    fun descriptions => ∃ text, some text ∈ descriptions ∧ Stranded text.toList

end Modules

/-- A list in a container of its own, with a note on it. -/
def noted (note : String) : Json :=
  .object [("optionalProperties", .object [("tags", .object [
    ("elements", .object [("type", .string "string")]),
    ("metadata", .object [("description", .string note), ("rustContainer", .string "Set")])])])]

/-- Returns at the ends of lines are dropped, and so are those around the text. -/
theorem exists_return_iff_noted :
    ∃ schema rendered,
      Schema.ofJson (noted "\r in order\r\n\r\n no \r \n repetitions\r") = .ok schema ∧
      (∀ node, Schema.Contains schema node → ∀ key ∈ ["rustType", "rustContainer"], ∀ text,
        node.metadata.hint? key = some (.string text) → '\r' ∉ text.toList) ∧
      Target.render ⟨.rust, ""⟩ (Catalog.ofSchema schema "root") = .ok rendered ∧
      ((∃ file ∈ rendered.files, ∃ line ∈ splitAtEach (· == '\n') file.contents.toList,
          isRustDoc line = true ∧ '\r' ∈ line) ↔
        ∃ d ∈ (Catalog.ofSchema schema "root").declarations,
          ¬ Suppressed "rustType" (Catalog.ofSchema schema "root") d.id ∧ d.Stranded) ∧
      ¬ ∃ file ∈ rendered.files, ∃ line ∈ splitAtEach (· == '\n') file.contents.toList,
          isRustDoc line = true ∧ '\r' ∈ line := by
  have found : (Schema.ofJson (noted "\r in order\r\n\r\n no \r \n repetitions\r")).toOption.map
      (fun schema =>
        (decide (∀ place ∈ Catalog.places schema "root",
            HintTexts hints.all ('\r' ∉ ·.toList) place.node.metadata),
          (Target.render ⟨.rust, ""⟩ (Catalog.ofSchema schema "root")).isOk,
          decide (∀ d ∈ (Catalog.ofSchema schema "root").declarations, ¬ d.Stranded))) =
      some (true, true, true) := by
    decide +kernel
  obtain ⟨schema, read, found⟩ := Option.map_eq_some_iff.1 found
  obtain ⟨plain, found⟩ := Prod.mk.inj found
  obtain ⟨succeeds, smooth⟩ := Prod.mk.inj found
  have read := eq_ok_of_toOption read
  have plain := Catalog.forall_contains_of_places (P := fun node =>
    HintTexts hints.all ('\r' ∉ ·.toList) node.metadata) "root" (of_decide_eq_true plain)
  obtain ⟨rendered, renders⟩ := exists_of_isOk succeeds
  have returned := exists_return_iff_stranded read plain "root" "" rendered renders
  refine ⟨schema, rendered, read, plain, renders, returned, fun doc => ?_⟩
  obtain ⟨d, inside, -, stranded⟩ := returned.1 doc
  exact of_decide_eq_true smooth d inside stranded

/-- A return between two words stays in the comment. -/
theorem exists_return_noted :
    ∃ schema rendered, Schema.ofJson (noted "in order\rno repetitions") = .ok schema ∧
      (∀ node, Schema.Contains schema node → ∀ key ∈ ["rustType", "rustContainer"], ∀ text,
        node.metadata.hint? key = some (.string text) → '\r' ∉ text.toList) ∧
      Target.render ⟨.rust, ""⟩ (Catalog.ofSchema schema "root") = .ok rendered ∧
      ∃ file ∈ rendered.files, ∃ line ∈ splitAtEach (· == '\n') file.contents.toList,
        isRustDoc line = true ∧ '\r' ∈ line := by
  have found : (Schema.ofJson (noted "in order\rno repetitions")).toOption.map (fun schema =>
      (decide (∀ place ∈ Catalog.places schema "root",
          HintTexts hints.all ('\r' ∉ ·.toList) place.node.metadata),
        (Target.render ⟨.rust, ""⟩ (Catalog.ofSchema schema "root")).isOk,
        (rules.drafts (namedFor .rust schema "root")).toOption.map
          (List.flatMap Draft.descriptions))) =
      some (true, true, some [none, some "in order\rno repetitions"]) := by
    decide +kernel
  obtain ⟨schema, read, found⟩ := Option.map_eq_some_iff.1 found
  obtain ⟨plain, found⟩ := Prod.mk.inj found
  obtain ⟨succeeds, described⟩ := Prod.mk.inj found
  have read := eq_ok_of_toOption read
  have plain := Catalog.forall_contains_of_places (P := fun node =>
    HintTexts hints.all ('\r' ∉ ·.toList) node.metadata) "root" (of_decide_eq_true plain)
  obtain ⟨rendered, renders⟩ := exists_of_isOk succeeds
  obtain ⟨drafts, drafted, returned⟩ :=
    exists_return_iff_draft read plain "root" "" rendered renders
  rw [drafted] at described
  have described := Option.some.inj described
  have listed : some "in order\rno repetitions" ∈ drafts.flatMap Draft.descriptions := by
    rw [described]
    decide
  obtain ⟨d, member, own⟩ := List.mem_flatMap.1 listed
  exact ⟨schema, rendered, read, plain, renders,
    returned.2 ⟨d, member, _, own, (by decide : Stranded "in order\rno repetitions".toList)⟩⟩

end Binding.RustModule

end SchemaBindings
