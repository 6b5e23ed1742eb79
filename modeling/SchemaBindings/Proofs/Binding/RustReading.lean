import SchemaBindings.Proofs.Binding.Readers

/-! What the text of a Rust item tells of its draft. -/

namespace SchemaBindings.Binding

open Naming (IsIdentifier)
open Text (asciiQuoted?)

namespace RustModule

section Lines

theorem lineTokens_renameLine (wireName : String) :
    lineTokens .rust [renameLine "    " wireName] = [.wireName wireName] := by
  have cut (rest : List Char) :
      Binding.tokens .rust ("    #[serde(rename = ".toList ++ rest) =
        (asciiQuoted? rest).elim [] fun read => [.wireName read.1] := rfl
  have start : "    ".toList ++ "#[serde(rename = \"".toList =
      "    #[serde(rename = ".toList ++ ['"'] := by decide
  rw [lineTokens_singleton, renameLine]
  simp only [String.toList_append]
  rw [start, List.append_assoc, List.append_assoc, cut]
  exact congrArg (Option.elim · [] _) (Text.asciiQuoted?_asciiEscaped wireName ")]".toList)

theorem lineTokens_member {name : String} (named : IsIdentifier name) (type : String) :
    lineTokens .rust ["    pub " ++ name ++ ": " ++ type ++ ","] = [.member (some name)] := by
  have cut (rest : List Char) : Binding.tokens .rust ("    pub ".toList ++ rest) =
      (word? rest).elim [] fun read => [.member (some (.ofList read.1))] := rfl
  have ends : EndsWord (": ".toList ++ (type.toList ++ ",".toList)) := rfl
  simp only [lineTokens_singleton, String.toList_append, List.append_assoc]
  rw [cut, word?_identifier named ends, Option.elim_some, String.ofList_toList]

theorem lineTokens_constant {constant : String} (named : IsIdentifier constant) :
    lineTokens .rust ["    " ++ constant ++ ","] = [.constant constant] := by
  have cut (rest : List Char) : Binding.tokens .rust ("    ".toList ++ rest) = innerTokens rest :=
    rfl
  simp only [lineTokens_singleton, String.toList_append, List.append_assoc]
  rw [cut, innerTokens, word?_identifier named (by decide)]
  exact congrArg (fun text => [Token.constant text]) String.ofList_toList

theorem lineTokens_case {constant type : String} (named : IsIdentifier constant)
    (typed : IsIdentifier type) :
    lineTokens .rust ["    " ++ constant ++ "(" ++ type ++ "),"] = [.variant type] := by
  have cut (rest : List Char) : Binding.tokens .rust ("    ".toList ++ rest) = innerTokens rest :=
    rfl
  have ends : EndsWord ("(".toList ++ (type.toList ++ "),".toList)) := rfl
  have inner : word? (type.toList ++ "),".toList) = some (type.toList, "),".toList) :=
    word?_identifier typed (by decide)
  simp only [lineTokens_singleton, String.toList_append, List.append_assoc]
  rw [cut, innerTokens, word?_identifier named ends]
  change (word? (type.toList ++ "),".toList)).elim [] _ = _
  rw [inner, Option.elim_some, String.ofList_toList]

end Lines

theorem tells_fieldLines (boxed : Nat → Bool) {f : Field Unit} (named : IsIdentifier f.name) :
    Tells .rust (fieldLines boxed f.undescribed) [.slot f.slot] := by
  have mark : lineTokens .rust (if f.required then []
      else ["    #[serde(default, skip_serializing_if = \"Option::is_none\")]"]) =
        if f.required then [] else [.optional] := by
    cases f.required <;> rfl
  have renamed : lineTokens .rust
      (if f.name = f.wireName then [] else [renameLine "    " f.wireName]) =
        if f.name = f.wireName then [] else [.wireName f.wireName] := by
    split
    · rfl
    · exact lineTokens_renameLine _
  have lines : fieldLines boxed f.undescribed =
      (if f.name = f.wireName then [] else [renameLine "    " f.wireName]) ++
        (if f.required then []
          else ["    #[serde(default, skip_serializing_if = \"Option::is_none\")]"]) ++
        ["    pub " ++ f.name ++ ": " ++ fieldType boxed f ++ ","] := rfl
  have cut : lineTokens .rust (fieldLines boxed f.undescribed) =
      (if f.name = f.wireName then [] else [.wireName f.wireName]) ++
        (if f.required then [] else [.optional]) ++ [.member (some f.name)] := by
    rw [lines, lineTokens_append, lineTokens_append, renamed, mark, lineTokens_member named]
  refine tells_of_tokens cut fun rest => ?_
  by_cases same : f.name = f.wireName <;> cases required : f.required <;>
    simp [entriesFrom, Field.slot, required, same]

theorem tells_structLines (boxed : Nat → Bool) {name : String} (named : IsIdentifier name)
    {fields : List (Field Unit)} (names : ∀ f ∈ fields, IsIdentifier f.name) :
    Tells .rust (structLines boxed name (fields.map Field.undescribed))
      (.name name :: fields.map (.slot ·.slot)) := by
  have head : Tells .rust ["pub struct " ++ name ++ " \x7b"] [.name name] :=
    tells_declared (fun _ => rfl) named (by decide)
  have close : Tells .rust ["\x7d"] [] := tells_nothing rfl
  rw [structLines, List.flatMap_map]
  exact ((head.append (.map fun f member => tells_fieldLines boxed (names f member))).append
    close).congr (by simp)

theorem tells_choiceLines {c : Choice} (named : IsIdentifier c.constant) :
    Tells .rust (choiceLines c.undescribed) [.choice c.value c.constant] := by
  have lines : choiceLines c.undescribed =
      [renameLine "    " c.value, "    " ++ c.constant ++ ","] := rfl
  have cut : lineTokens .rust (choiceLines c.undescribed) =
      [.wireName c.value, .constant c.constant] := by
    rw [lines, lineTokens_cons, lineTokens_renameLine, lineTokens_constant named]
    rfl
  exact tells_of_tokens cut fun _ => rfl

/-- A union tells its tag, its name, and the variants by their tag values. -/
def unionTold (name tag : String) (cases : List Case) : List Entry :=
  [.tag tag, .name name] ++ cases.map fun c => .variant c.tagValue c.reference.text

theorem tells_caseLines {c : Case} (named : IsIdentifier c.constant)
    (typed : IsIdentifier c.reference.text) :
    Tells .rust (caseLines c) [.variant c.tagValue c.reference.text] := by
  have cut : lineTokens .rust (caseLines c) =
      [.wireName c.tagValue, .variant c.reference.text] := by
    rw [caseLines, lineTokens_cons, lineTokens_renameLine, lineTokens_case named typed]
    rfl
  exact tells_of_tokens cut fun _ => rfl

theorem tells_tagLine (tag : String) :
    Tells .rust ["#[serde(tag = \"" ++ Text.asciiEscaped tag ++ "\")]"] [.tag tag] := by
  have cut (rest : List Char) : Binding.tokens .rust ("#[serde(tag = ".toList ++ rest) =
      (asciiQuoted? rest).elim [] fun read => [.entry (.tag read.1)] := rfl
  have start : "#[serde(tag = \"".toList = "#[serde(tag = ".toList ++ ['"'] := by decide
  have told : lineTokens .rust ["#[serde(tag = \"" ++ Text.asciiEscaped tag ++ "\")]"] =
      [.entry (.tag tag)] := by
    simp only [lineTokens_singleton, String.toList_append]
    rw [start, List.append_assoc, List.append_assoc, cut]
    exact congrArg (Option.elim · [] _) (Text.asciiQuoted?_asciiEscaped tag ")]".toList)
  exact tells_of_tokens told fun _ => rfl

theorem tells_bodyLines (boxed : Nat → Bool) {name : String} (named : IsIdentifier name)
    {body : Body Unit} (names : ∀ name ∈ body.names, IsIdentifier name)
    (references : ∀ reference ∈ body.references, IsIdentifier reference.text) :
    Tells .rust (bodyLines boxed name body.undescribed)
      (body.told name [] (unionTold name) fun _ => []) := by
  have close : Tells .rust ["\x7d"] [] := tells_nothing rfl
  have enumHead : Tells .rust ["pub enum " ++ name ++ " \x7b"] [.name name] :=
    tells_declared (fun _ => rfl) named (by decide)
  cases body with
  | record fields additional =>
    have strict : lineTokens .rust
        (if additional then [] else ["#[serde(deny_unknown_fields)]"]) = [] := by
      cases additional <;> rfl
    exact (tells_nothing strict).append
      (tells_structLines boxed named (List.forall_mem_map.1 names))
  | variant base tagValue fields additional =>
    exact (tells_structLines boxed named (List.forall_mem_map.1 names)).congr
      (by simp [Body.told])
  | enumeration choices =>
    have inner : Tells .rust (choices.flatMap fun c => choiceLines c.undescribed)
        (choices.map fun c => .choice c.value c.constant) :=
      .map fun c member => tells_choiceLines (names _ (List.mem_map_of_mem member))
    rw [Body.undescribed, Body.redescribe, bodyLines, List.flatMap_map]
    exact ((enumHead.append inner).append close).congr (by simp [Body.told])
  | union tag cases' =>
    have inner : Tells .rust (cases'.flatMap caseLines)
        (cases'.map fun c => .variant c.tagValue c.reference.text) :=
      .map fun c member => tells_caseLines
        (names _ (List.mem_append_right _ (List.mem_map_of_mem member)))
        (references _ (List.mem_map_of_mem member))
    exact ((((tells_tagLine tag).append enumHead).append inner).append close).congr
      (by simp [Body.told, unionTold])
  | wrapper inner =>
    have head : Tells .rust ["pub struct " ++ name ++ ("(pub " ++ typeText boxed inner ++ ");")]
        [.name name] := by
      refine tells_declared (fun _ => rfl) named ?_
      rw [String.toList_append, String.toList_append]
      rfl
    have transparent : Tells .rust ["#[serde(transparent)]"] [] := tells_nothing rfl
    rw [← String.append_assoc, ← String.append_assoc] at head
    exact transparent.append head

theorem tells_itemLines (edges : List (List Nat)) {d : Draft (List String) Unit}
    (named : IsIdentifier d.name) (names : ∀ name ∈ d.body.names, IsIdentifier name)
    (references : ∀ reference ∈ d.body.references, IsIdentifier reference.text) :
    Tells .rust (itemLines edges d.undescribed)
      (d.body.told d.name [] (unionTold d.name) fun _ => []) := by
  have derives : Tells .rust [deriveLine d.extra] [] := by
    refine tells_nothing ?_
    rw [lineTokens_singleton, deriveLine, String.toList_append, String.toList_append]
    rfl
  have blank : Tells .rust [""] [] := tells_nothing rfl
  exact ((derives.append (tells_bodyLines _ named names references)).append blank).congr
    (List.append_nil _)

end RustModule

end SchemaBindings.Binding
