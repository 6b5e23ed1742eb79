import SchemaBindings.Proofs.Binding.Readers

/-! What the text of a class tells of its draft. -/

namespace SchemaBindings.Binding

open Naming (IsIdentifier)
open Text (quoted?)

namespace JavaClasses

section Lines

theorem lineTokens_property (name : String) :
    lineTokens .java ["    @JsonProperty(" ++ Text.jsonString name ++ ")"] = [.wireName name] := by
  have cut (rest : List Char) : Binding.tokens .java ("    @JsonProperty(".toList ++ rest) =
      (quoted? rest).elim [] fun read => [.wireName read.1] := rfl
  simp only [lineTokens_singleton, String.toList_append, List.append_assoc]
  rw [cut, Text.quoted?_jsonString, Option.elim_some]

theorem lineTokens_member (type name : String) :
    lineTokens .java ["    private " ++ type ++ " " ++ name ++ ";"] = [.member none] := by
  simp only [lineTokens_singleton, String.toList_append]
  rfl

theorem lineTokens_constant {constant : String} (named : IsIdentifier constant) :
    lineTokens .java ["    " ++ constant ++ ","] = [.constant constant] := by
  have cut (rest : List Char) : Binding.tokens .java ("    ".toList ++ rest) = innerTokens rest :=
    rfl
  simp only [lineTokens_singleton, String.toList_append, List.append_assoc]
  rw [cut, innerTokens, word?_identifier named (by decide)]
  exact congrArg (fun text => [Token.constant text]) String.ofList_toList

theorem lineTokens_caseLine {c : Case} (named : IsIdentifier c.reference.text) :
    lineTokens .java [caseLine c] = [.wireName c.tagValue, .variant c.reference.text] := by
  have cut (rest : List Char) :
      Binding.tokens .java ("    @JsonSubTypes.Type(name = ".toList ++ rest) = caseTokens rest :=
    rfl
  have type := word?_identifier named (by decide : EndsWord ".class),".toList)
  unfold caseLine
  simp only [lineTokens_singleton, String.toList_append, List.append_assoc]
  rw [cut, caseTokens, Text.quoted?_jsonString, Option.elim_some]
  simp only [behind?_append, Option.bind_some]
  rw [type, Option.elim_some, String.ofList_toList]

theorem lineTokens_accessorLines (field type : String) :
    lineTokens .java (accessorLines field type none) = [] := by
  simp only [accessorLines, lineTokens, comment, blockComment, List.cons_append, List.nil_append,
    List.flatMap_cons, List.flatMap_nil, String.toList_append]
  rfl

end Lines

theorem tells_fieldLines (f : Field Unit) :
    Tells .java (fieldLines f.undescribed) [.slot f.slot] := by
  have mark : lineTokens .java
      (if f.required then [] else ["    @JsonInclude(JsonInclude.Include.NON_NULL)"]) =
        if f.required then [] else [.optional] := by
    cases f.required <;> rfl
  have lines : fieldLines f.undescribed =
      (if f.required then [] else ["    @JsonInclude(JsonInclude.Include.NON_NULL)"]) ++
        ["    @JsonProperty(" ++ Text.jsonString f.wireName ++ ")",
         "    private " ++ typeText f.type ++ " " ++ f.name ++ ";", ""] := rfl
  have blank : lineTokens .java [""] = [] := rfl
  have cut : lineTokens .java (fieldLines f.undescribed) =
      (if f.required then [] else [.optional]) ++ [.wireName f.wireName, .member none] := by
    rw [lines, lineTokens_append, mark, lineTokens_cons, lineTokens_cons _ [""],
      lineTokens_property, lineTokens_member, blank]
    rfl
  refine tells_of_tokens cut fun rest => ?_
  cases required : f.required <;> simp [entriesFrom, Field.slot, required]

theorem tells_choiceLines {c : Choice} (named : IsIdentifier c.constant) :
    Tells .java (choiceLines c.undescribed) [.choice c.value c.constant] := by
  have lines : choiceLines c.undescribed = ["    @JsonProperty(" ++ Text.jsonString c.value ++ ")",
      "    " ++ c.constant ++ ","] := rfl
  have cut : lineTokens .java (choiceLines c.undescribed) =
      [.wireName c.value, .constant c.constant] := by
    rw [lines, lineTokens_cons, lineTokens_property, lineTokens_constant named]
    rfl
  exact tells_of_tokens cut fun _ => rfl

theorem tells_choicesLines {choices : List Choice}
    (named : ∀ c ∈ choices, IsIdentifier c.constant) :
    Tells .java (choicesLines (choices.map Choice.undescribed))
      (choices.map fun c => .choice c.value c.constant) := by
  cases choices with
  | nil => exact .nil
  | cons c rest =>
    obtain ⟨first, later⟩ := List.forall_mem_cons.1 named
    rw [List.map_cons, choicesLines, List.flatMap_map]
    refine (tells_choiceLines first).append (.map fun c member => ?_)
    have blank : Tells .java [""] [] := tells_nothing rfl
    exact blank.append (tells_choiceLines (later c member))

theorem tells_classLines {name : String} (named : IsIdentifier name) (base : Option String)
    (fields : List (Field Unit)) (additional : Bool) :
    Tells .java (classLines name none base (fields.map Field.undescribed) additional)
      (.name name :: fields.map (.slot ·.slot)) := by
  have head {clause : String} (ends : EndsWord (clause ++ " \x7b").toList) :
      Tells .java ["public class " ++ name ++ clause ++ " \x7b"] [.name name] := by
    rw [String.append_assoc]
    exact tells_declared (fun _ => rfl) named ends
  have constructor : lineTokens .java ["    public " ++ name ++ "() \x7b", "    \x7d"] = [] := by
    rw [lineTokens_cons, lineTokens_singleton, String.toList_append, String.toList_append]
    rfl
  have allowed : lineTokens .java
      (if additional then ["@JsonIgnoreProperties(ignoreUnknown = true)"] else []) = [] := by
    cases additional <;> rfl
  simp only [classLines, List.flatMap_map]
  have comment : Tells .java (comment "" none) [] := .nil
  have serialized : Tells .java ["@JsonSerialize"] [] := tells_nothing rfl
  have accessors : Tells .java (fields.flatMap fun f =>
      accessorLines f.undescribed.name (typeText f.undescribed.type) none) [] :=
    (Tells.flatMap fun f _ => tells_nothing (lineTokens_accessorLines _ _)).congr (by simp)
  have close : Tells .java ["\x7d"] [] := tells_nothing rfl
  refine (((((((comment.append serialized).append (tells_nothing allowed)).append
    (head ?_)).append (.map fun f _ => tells_fieldLines f)).append
      (tells_nothing constructor)).append accessors).append close).congr (by simp)
  cases base with
  | none => decide
  | some text =>
    rw [String.toList_append, String.toList_append]
    rfl

/-- A union tells its tag, the variants by their tag values, and its name. -/
def unionTold (name tag : String) (cases : List Case) : List Entry :=
  .tag tag :: cases.map (fun c => .variant c.tagValue c.reference.text) ++ [.name name]

theorem tells_unionLines {name : String} (named : IsIdentifier name) (tag : String)
    {cases : List Case} (references : ∀ c ∈ cases, IsIdentifier c.reference.text) :
    Tells .java (bodyLines name none (.union tag cases)) (unionTold name tag cases) := by
  have tagged : Tells .java ["@JsonTypeInfo(use = JsonTypeInfo.Id.NAME, property = " ++
      Text.jsonString tag ++ ")", "@JsonSubTypes(\x7b"] [.tag tag] := by
    have cut (rest : List Char) : Binding.tokens .java
        ("@JsonTypeInfo(use = JsonTypeInfo.Id.NAME, property = ".toList ++ rest) =
          (quoted? rest).elim [] fun read => [.entry (.tag read.1)] := rfl
    have told : lineTokens .java ["@JsonTypeInfo(use = JsonTypeInfo.Id.NAME, property = " ++
        Text.jsonString tag ++ ")", "@JsonSubTypes(\x7b"] = [.entry (.tag tag)] := by
      rw [lineTokens_cons, lineTokens_singleton, String.toList_append, String.toList_append,
        List.append_assoc, cut, Text.quoted?_jsonString, Option.elim_some]
      rfl
    exact tells_of_tokens told fun _ => rfl
  have cases' : Tells .java (cases.flatMap fun c => [caseLine c])
      (cases.map fun c => .variant c.tagValue c.reference.text) :=
    .map fun c member => tells_of_tokens (lineTokens_caseLine (references c member)) fun _ => rfl
  have head : Tells .java ["public abstract class " ++ name ++ " \x7b"] [.name name] :=
    tells_declared (fun _ => rfl) named (by decide)
  have close : Tells .java ["\x7d"] [] := tells_nothing rfl
  have open' : Tells .java ["\x7d)"] [] := tells_nothing rfl
  rw [← List.map_eq_flatMap] at cases'
  exact ((tagged.append cases').append (open'.append (head.append close))).congr
    (by simp [unionTold])

theorem tells_wrapperLines {name : String} (named : IsIdentifier name) (type : String) :
    Tells .java (wrapperLines name none type) [.name name] := by
  have head : Tells .java ["public class " ++ name ++ " \x7b"] [.name name] :=
    tells_declared (fun _ => rfl) named (by decide)
  have value : lineTokens .java
      (["    @JsonValue", "    private " ++ type ++ " value;", "",
        "    public " ++ name ++ "() \x7b", "    \x7d", "", "    @JsonCreator",
        "    public " ++ name ++ "(" ++ type ++ " value) \x7b", "        this.value = value;",
        "    \x7d"] ++ accessorLines "value" type none ++ ["\x7d"]) = [.member none] := by
    rw [lineTokens_append, lineTokens_append, lineTokens_accessorLines]
    simp only [lineTokens, List.flatMap_cons, List.flatMap_nil, String.toList_append]
    rfl
  exact head.append (tells_of_tokens value fun _ => (List.nil_append _).symm)

theorem tells_bodyLines {name : String} (named : IsIdentifier name) {body : Body Unit}
    (names : ∀ name ∈ body.names, IsIdentifier name)
    (references : ∀ reference ∈ body.references, IsIdentifier reference.text) :
    Tells .java (bodyLines name none body.undescribed)
      (body.told name [] (unionTold name) fun _ => []) := by
  cases body with
  | record fields additional => exact tells_classLines named none fields additional
  | variant base tagValue fields additional =>
    exact (tells_classLines named (some base.text) fields additional).congr (by simp [Body.told])
  | enumeration choices =>
    have head : Tells .java ["public enum " ++ name ++ " \x7b"] [.name name] :=
      tells_declared (fun _ => rfl) named (by decide)
    have close : Tells .java ["\x7d"] [] := tells_nothing rfl
    exact ((head.append (tells_choicesLines (List.forall_mem_map.1 names))).append close).congr
      (by simp [Body.told])
  | union tag cases' =>
    exact tells_unionLines named tag fun c member => references _ (List.mem_map_of_mem member)
  | wrapper inner => exact tells_wrapperLines named (typeText inner)

end JavaClasses

end SchemaBindings.Binding
