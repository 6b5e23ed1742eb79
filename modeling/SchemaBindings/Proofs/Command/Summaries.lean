import Mathlib.Data.List.Forall2
import SchemaBindings.Command.Summary
import SchemaBindings.Proofs.Keyed
import SchemaBindings.Proofs.Text.Literals

/-! What a summary says. In every format it is about the targets that were written and no others, and
gives the names of their types. As JSON it can be read back. -/

namespace SchemaBindings

namespace Json

open Command (objectText)
open Keyed (Related)
open Text (jsonString toList_jsonString_append)

/-- The text is read as this value, whatever stands behind it. -/
def Reads (depth : Nat) (text : String) (value : Json) : Prop :=
  ∀ rest, readValue depth (text.toList ++ rest) = some (value, rest)

theorem skipBlanks_of_not_blank (c : Char) (visible : isFormatBlank c = false) (rest : List Char) :
    skipBlanks (c :: rest) = c :: rest := by
  rw [skipBlanks, List.dropWhile_cons_of_neg (by simp [visible])]

theorem reads_jsonString (depth : Nat) (text : String) :
    Reads depth (jsonString text) (.string text) := by
  intro rest
  rw [toList_jsonString_append, readValue]
  simp only [skipBlanks_of_not_blank '"' rfl, Text.readQuoted_jsonChars,
    Option.bind_eq_bind, Option.bind_some, String.ofList_toList]
  rfl

section Members

variable {depth : Nat} {key text : String} {value : Json}

/-- A member as it is written. -/
def memberText (m : String × String) : String := jsonString m.1 ++ ":" ++ m.2

theorem toList_memberText_append (m : String × String) (rest : List Char) :
    (memberText m).toList ++ rest = (jsonString m.1).toList ++ ':' :: (m.2.toList ++ rest) := by
  rw [memberText, String.toList_append, String.toList_append, List.append_assoc, List.append_assoc]
  rfl

theorem readMembers_last (reads : Reads depth text value) (fuel : Nat) (rest : List Char) :
    readMembers (readValue depth) (fuel + 1) ((memberText (key, text)).toList ++ '\x7d' :: rest) =
      some ([(key, value)], rest) := by
  rw [toList_memberText_append, toList_jsonString_append, readMembers]
  simp only [skipBlanks_of_not_blank '"' rfl, Text.readQuoted_jsonChars,
    Option.bind_eq_bind, Option.bind_some, String.ofList_toList,
    skipBlanks_of_not_blank ':' rfl, reads ('\x7d' :: rest),
    skipBlanks_of_not_blank '\x7d' rfl]
  rfl

theorem readMembers_next (reads : Reads depth text value) (fuel : Nat) (rest : List Char) :
    readMembers (readValue depth) (fuel + 1) ((memberText (key, text)).toList ++ ',' :: rest) =
      (readMembers (readValue depth) fuel rest).map
        fun read => ((key, value) :: read.1, read.2) := by
  rw [toList_memberText_append, toList_jsonString_append, readMembers]
  simp only [skipBlanks_of_not_blank '"' rfl, Text.readQuoted_jsonChars,
    Option.bind_eq_bind, Option.bind_some, String.ofList_toList,
    skipBlanks_of_not_blank ':' rfl, reads (',' :: rest),
    skipBlanks_of_not_blank ',' rfl]
  cases readMembers (readValue depth) fuel rest <;> rfl

theorem readMembers_intercalate {m : String × String} {members : List (String × String)}
    {values : List (String × Json)} (reads : Related (Reads depth) (m :: members) values)
    {fuel : Nat} (enough : members.length < fuel) (rest : List Char) :
    readMembers (readValue depth) fuel
        ((String.intercalate "," ((m :: members).map memberText)).toList ++ '\x7d' :: rest) =
      some (values, rest) := by
  induction members generalizing m values fuel with
  | nil =>
    obtain ⟨⟨key, value⟩, _, ⟨rfl, here⟩, none, rfl⟩ := List.forall₂_cons_left_iff.1 reads
    obtain rfl := List.forall₂_nil_left_iff.1 none
    obtain ⟨fuel, rfl⟩ := Nat.exists_eq_add_one_of_ne_zero (Nat.ne_zero_of_lt enough)
    exact readMembers_last here fuel rest
  | cons next members ih =>
    obtain ⟨⟨key, value⟩, others, ⟨rfl, here⟩, later, rfl⟩ := List.forall₂_cons_left_iff.1 reads
    obtain ⟨fuel, rfl⟩ := Nat.exists_eq_add_one_of_ne_zero (Nat.ne_zero_of_lt enough)
    have behind := ih later (Nat.lt_of_succ_lt_succ enough)
    rw [List.map_cons, List.map_cons, String.intercalate_cons_cons, String.toList_append,
      String.toList_append, List.append_assoc, List.append_assoc]
    rw [← List.map_cons, show ",".toList = [','] from rfl, List.singleton_append,
      readMembers_next here, behind]
    rfl

/-- Every member takes up room, and the first character is a quote. -/
theorem exists_toList_memberText (m : String × String) :
    ∃ tail, (memberText m).toList = '"' :: tail := by
  have start := toList_memberText_append m []
  rw [List.append_nil, toList_jsonString_append] at start
  exact ⟨_, start⟩

theorem length_le_length_intercalate (members : List (String × String)) :
    members.length ≤ (String.intercalate "," (members.map memberText)).toList.length := by
  induction members with
  | nil => exact Nat.zero_le _
  | cons m rest ih =>
    obtain ⟨tail, start⟩ := exists_toList_memberText m
    cases rest with
    | nil => simp [start]
    | cons next others =>
      rw [List.map_cons, List.map_cons, String.intercalate_cons_cons, ← List.map_cons,
        String.toList_append, String.toList_append, List.length_append, List.length_append, start]
      simp only [List.length_cons] at ih ⊢
      omega

theorem exists_toList_intercalate (m : String × String) (members : List (String × String)) :
    ∃ tail, (String.intercalate "," ((m :: members).map memberText)).toList = '"' :: tail := by
  obtain ⟨tail, start⟩ := exists_toList_memberText m
  cases members with
  | nil => exact ⟨tail, by simpa using start⟩
  | cons next others =>
    rw [List.map_cons, List.map_cons, String.intercalate_cons_cons, String.toList_append,
      String.toList_append, start, List.cons_append, List.cons_append]
    exact ⟨_, rfl⟩

/-- An object is read back when its members are. -/
theorem reads_objectText {members : List (String × String)} {values : List (String × Json)}
    (reads : Related (Reads depth) members values) :
    Reads (depth + 1) (objectText members) (.object values) := by
  intro rest
  have spelled : (objectText members).toList ++ rest = '\x7b' ::
      ((String.intercalate "," (members.map memberText)).toList ++ '\x7d' :: rest) := by
    rw [objectText, String.toList_append, String.toList_append, List.append_assoc,
      List.append_assoc]
    rfl
  rw [spelled]
  cases members with
  | nil =>
    obtain rfl := List.forall₂_nil_left_iff.1 reads
    rw [readValue]
    rfl
  | cons m members =>
    have enough := length_le_length_intercalate (m :: members)
    have all := readMembers_intercalate reads (Nat.lt_of_lt_of_le enough
      (Nat.le_add_right _ (('\x7d' :: rest).length))) rest
    obtain ⟨tail, start⟩ := exists_toList_intercalate m members
    rw [← List.length_append, start, List.cons_append] at all
    rw [start, List.cons_append, readValue]
    simp only [skipBlanks_of_not_blank '\x7b' rfl, skipBlanks_of_not_blank '"' rfl]
    change Option.bind (readMembers _ _ _) _ = _
    rw [all]
    rfl

end Members

/-- A text with one value and a line feed behind it. -/
theorem ofText?_of_reads {text : String} {value : Json} (reads : Reads nestingLimit text value) :
    ofText? (Text.unlines [text]) = some value := by
  have line : (Text.unlines [text]).toList = text.toList ++ ['\n'] := by
    simp [Text.unlines, String.join]
  rw [ofText?, line, reads]
  rfl

end Json

namespace Command

open Binding (Roster)
open Json (Reads)
open Keyed (Related)
open Output (Failure Order Report Written)

/-- The targets that were written, each with the names of its types. -/
def successes (reports : List Report) : List (Order × Roster) :=
  reports.filterMap fun r =>
    match r.outcome with
    | .ok w => some (r.order, w.roster)
    | .error _ => none

theorem successes_cons_ok {r : Report} {w : Written} (done : r.outcome = .ok w)
    (rest : List Report) : successes (r :: rest) = (r.order, w.roster) :: successes rest := by
  rw [successes, List.filterMap_cons, done]
  rfl

theorem successes_cons_error {r : Report} {failure : Failure} (failed : r.outcome = .error failure)
    (rest : List Report) : successes (r :: rest) = successes rest := by
  rw [successes, List.filterMap_cons, failed]
  rfl

/-- The lines about one target in the formats that have lines. -/
def linesAbout (format : Format) (order : Order) (roster : Roster) : List String :=
  let id := order.target.language.id
  match format with
  | .pretty =>
    ["Generated " ++ id ++ " code in: " ++ order.directory,
      "\tRoot schema converted into type: " ++ roster.root] ++
    roster.definitions.map fun (name, type) =>
      "\tDefinition " ++ Text.shown name ++ " converted into type: " ++ type
  | .minimal =>
    (id ++ ": root: " ++ roster.root) ::
      roster.definitions.map fun (name, type) => id ++ ": definition: " ++ name ++ ": " ++ type
  | .json => []

/-- The JSON value about one target. -/
def valueAbout (order : Order) (roster : Roster) : Json :=
  .object
    [("out_dir", .string order.directory),
      ("root_name", .string roster.root),
      ("definition_names",
        .object (roster.definitions.map fun (name, type) => (name, .string type)))]

/-- An output says of these targets that they were written, and of no others. -/
def Shows (format : Format) (written : List (Order × Roster)) (out : String) : Prop :=
  match format with
  | .json => ∃ members, Json.ofText? out = some (.object members) ∧ Keyed.Increasing members ∧
      ∀ member, member ∈ members ↔
        ∃ order roster, (order, roster) ∈ written ∧
          member = (order.target.language.id, valueAbout order roster)
  | format =>
    out = Text.unlines (written.flatMap fun (order, roster) => linesAbout format order roster)

theorem reads_entryText (r : Report) (w : Written) (depth : Nat) :
    Reads (depth + 2) (entryText r w) (valueAbout r.order w.roster) := by
  have definitions : Related (Reads depth)
      (w.roster.definitions.map fun (name, type) => (name, Text.jsonString type))
      (w.roster.definitions.map fun (name, type) => (name, Json.string type)) := by
    rw [Related, List.forall₂_map_left_iff, List.forall₂_map_right_iff, List.forall₂_same]
    exact fun (name, type) _ => ⟨rfl, Json.reads_jsonString depth type⟩
  exact Json.reads_objectText
    (.cons ⟨rfl, Json.reads_jsonString _ _⟩ (.cons ⟨rfl, Json.reads_jsonString _ _⟩
      (.cons ⟨rfl, Json.reads_objectText definitions⟩ .nil)))

/-- Where each success tells its lines and each failure nothing, all of them are told in order. -/
theorem out_join {tell : Report → Printed} {about : Order → Roster → List String}
    (ok : ∀ r w, r.outcome = .ok w → (tell r).out = Text.unlines (about r.order w.roster))
    (error : ∀ r failure, r.outcome = .error failure → (tell r).out = "") (reports : List Report) :
    (Printed.join (reports.map tell)).out =
      Text.unlines ((successes reports).flatMap fun (order, roster) => about order roster) := by
  induction reports with
  | nil => rfl
  | cons r rest ih =>
    have first : (Printed.join ((r :: rest).map tell)).out =
        (tell r).out ++ (Printed.join (rest.map tell)).out := rfl
    rw [first, ih]
    cases told : r.outcome with
    | ok w => rw [ok r w told, successes_cons_ok told, List.flatMap_cons, Text.unlines_append]
    | error failure => rw [error r failure told, successes_cons_error told, String.empty_append]

/-- The members of the summary, before they are sorted and written. -/
def membersOf (written : List (Order × Roster)) : List (String × Json) :=
  written.map fun (order, roster) => (order.target.language.id, valueAbout order roster)

/-- What is told of the targets that were written is read back, in any order of the keys. -/
theorem ofText?_json (reports : List Report) :
    Json.ofText? (json reports).out =
      some (.object (Keyed.ofList (membersOf (successes reports)))) := by
  refine Json.ofText?_of_reads (@Json.reads_objectText 126 _ _ (Keyed.related_ofList ?_))
  induction reports with
  | nil => exact .nil
  | cons r rest ih =>
    cases told : r.outcome with
    | ok w =>
      rw [List.filterMap_cons, told, successes_cons_ok told]
      exact .cons ⟨rfl, reads_entryText r w 124⟩ ih
    | error failure =>
      rw [List.filterMap_cons, told, successes_cons_error told]
      exact ih

theorem shows_summary (format : Format) {reports : List Report}
    (distinct : ((successes reports).map fun s => s.1.target.language.id).Nodup) :
    Shows format (successes reports) (summary format reports).out := by
  cases format with
  | pretty =>
    exact out_join (fun r w done => by simp only [pretty, done]; rfl)
      (fun r failure failed => by simp only [pretty, failed]) reports
  | minimal =>
    exact out_join (fun r w done => by simp only [minimal, done]; rfl)
      (fun r failure failed => by simp only [minimal, failed]) reports
  | json =>
    have keyed : (Keyed.keys (membersOf (successes reports))).Nodup := by
      rw [Keyed.keys, membersOf, List.map_map]
      exact distinct
    refine ⟨_, ofText?_json reports, Keyed.increasing_ofList _, fun member => ?_⟩
    rw [(Keyed.perm_ofList keyed).mem_iff, membersOf, List.mem_map, Prod.exists]
    simp only [eq_comm]

end Command

end SchemaBindings
