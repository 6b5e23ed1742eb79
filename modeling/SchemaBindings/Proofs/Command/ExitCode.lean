import SchemaBindings.Proofs.Binding.FiniteSize
import SchemaBindings.Proofs.Command.Requests
import SchemaBindings.Proofs.Command.Summaries
import SchemaBindings.Proofs.Output.Lasting

/-! What a run tells. The code is 0 when everything that was asked for has been written, and 1
otherwise; the summary is about what was written and nothing else. -/

namespace SchemaBindings.Command

open Binding (Roster namedFor)
open Output (Feasible Order PlainFiles Report Separate Succeeds Tree pathIn)

variable {t t' : Tree} {input : String} {o : Options} {args : List String} {asked rest : List Order}
  {schema : Schema} {rootName : String} {reports : List Report}

/-- The root takes its name from an option, or else from the file. -/
def rootNameFor (o : Options) (input : String) : String :=
  (o.value? .rootName).getD (rootNameOf input)

/-- Why nothing is generated at all. -/
inductive Refused (t : Tree) (input : String) (o : Options) : Prop
  | incomplete (lacks : ¬ Complete o)
  | unreadable (absent : t.readText? input = none)
  | invalid {text : String} {fault : Fault} (read : t.readText? input = some text)
      (fails : Schema.ofText text = .error fault)

/-- The options ask for these orders, and the input is this schema. -/
structure Underway (t : Tree) (input : String) (o : Options) (asked : List Order)
    (schema : Schema) : Prop where
  complete : Complete o
  asks : Asks o asked
  valid : ∃ text, t.readText? input = some text ∧ Schema.ofText text = .ok schema

/-- The names of the types that a target makes of a schema. -/
def rosterFor (schema : Schema) (rootName : String) (order : Order) : Roster :=
  Roster.ofNames (namedFor order.target.language schema rootName)

/-- All files of an order hold what was rendered. -/
def Stands (schema : Schema) (rootName : String) (t : Tree) (order : Order) : Prop :=
  ∃ r, order.target.render (Catalog.ofSchema schema rootName) = .ok r ∧
    ∀ f ∈ r.files, t.read? (pathIn order.directory f) = some f.contents.toUTF8

/-- These orders and no others have succeeded, their files are there, and the output is about
them. -/
structure Sums (schema : Schema) (rootName : String) (t t' : Tree) (format : Format)
    (asked written : List Order) (out : String) : Prop where
  among : written.Sublist asked
  succeeded : ∀ order ∈ asked, order ∈ written ↔ Succeeds schema rootName t asked order
  stands : ∀ order ∈ written, Stands schema rootName t' order
  shows : Shows format (written.map fun order => (order, rosterFor schema rootName order)) out

/-- What a run may say of itself, and leave behind, when it ends. -/
structure Truthful (t : Tree) (input : String) (o : Options) (outcome : Outcome) (t' : Tree) :
    Prop where
  code : outcome.code = 0 ∨ outcome.code = 1
  success : outcome.code = 0 ↔ ∃ asked schema, Underway t input o asked schema ∧
    ∀ order ∈ asked, Succeeds schema (rootNameFor o input) t asked order
  refused : Refused t input o → t' = t ∧ outcome.printed.out = ""
  underway : ¬ Refused t input o → ∃ asked schema, Underway t input o asked schema ∧
    ∃ written, Sums schema (rootNameFor o input) t t' o.format asked written outcome.printed.out
  /-- In directories beside each other, what failed makes no difference to what did not. -/
  apart : ∀ asked schema, Underway t input o asked schema → Separate asked →
    PlainFiles (Catalog.ofSchema schema (rootNameFor o input)) asked → ∀ order ∈ asked,
      (Succeeds schema (rootNameFor o input) t asked order ↔ Feasible order
        (order.target.render (Catalog.ofSchema schema (rootNameFor o input))) t)

theorem roster_of_render {target : Binding.Target} {r : Binding.Rendered}
    (renders : target.render (Catalog.ofSchema schema rootName) = .ok r) :
    r.roster = Roster.ofNames (namedFor target.language schema rootName) := by
  obtain ⟨files, -, same⟩ := (bind_eq_ok ..).1 renders
  cases same
  rfl

theorem all_isOk_iff {orders : List Order}
    (accounts : List.Forall₂ (Output.Accounts schema rootName t t' orders) rest reports) :
    reports.all (·.outcome.isOk) = true ↔
      ∀ order ∈ rest, Succeeds schema rootName t orders order := by
  induction accounts with
  | nil => exact iff_of_true rfl nofun
  | cons account _ ih =>
    rw [List.all_cons, Bool.and_eq_true, account.told, ih, List.forall_mem_cons]

/-- Going through the reports, those that succeeded are kept. -/
theorem exists_written {orders : List Order}
    (accounts : List.Forall₂ (Output.Accounts schema rootName t t' orders) rest reports) :
    ∃ written : List Order, written.Sublist rest ∧
      (∀ order ∈ rest, order ∈ written ↔ Succeeds schema rootName t orders order) ∧
      (∀ order ∈ written, Stands schema rootName t' order) ∧
      successes reports = written.map fun order => (order, rosterFor schema rootName order) := by
  induction accounts with
  | nil => exact ⟨[], .refl _, nofun, nofun, rfl⟩
  | @cons order first rest reports account _ ih =>
    obtain ⟨written, among, succeeded, stands, kept⟩ := ih
    obtain ⟨rfl, told, holds⟩ := account
    cases outcome : first.outcome with
    | ok w =>
      have succeeds := told.1 (by rw [outcome]; rfl)
      obtain ⟨r, renders, rfl, files⟩ := holds w outcome
      refine ⟨first.order :: written, among.cons_cons _, ?_, ?_, ?_⟩
      · refine List.forall_mem_cons.2
          ⟨iff_of_true List.mem_cons_self succeeds, fun order later => ?_⟩
        rw [List.mem_cons, succeeded order later]
        exact or_iff_right_of_imp fun same => same ▸ succeeds
      · exact List.forall_mem_cons.2 ⟨⟨r, renders, files⟩, stands⟩
      · rw [successes_cons_ok outcome, kept, List.map_cons, roster_of_render renders, rosterFor]
    | error failure =>
      have fails : ¬ Succeeds schema rootName t orders first.order := fun succeeds => by
        have done := told.2 succeeds
        rw [outcome] at done
        cases done
      refine ⟨written, among.cons _, ?_, stands, by rw [successes_cons_error outcome, kept]⟩
      refine List.forall_mem_cons.2 ⟨iff_of_false (fun member => fails ?_) fails, succeeded⟩
      exact (succeeded _ (among.subset member)).1 member

/-- A request that is refused is not under way. -/
theorem Underway.not_refused (underway : Underway t input o asked schema) : ¬ Refused t input o := by
  obtain ⟨complete, -, text, read, valid⟩ := underway
  rintro (lacks | absent | ⟨readToo, fails⟩)
  · exact lacks complete
  · rw [read] at absent
    cases absent
  · obtain rfl := Option.some.inj (read.symm.trans readToo)
    rw [valid] at fails
    cases fails

theorem Underway.unique {others : List Order} {other : Schema}
    (underway : Underway t input o asked schema) (again : Underway t input o others other) :
    asked = others ∧ schema = other := by
  obtain ⟨text, read, valid⟩ := underway.valid
  obtain ⟨_, readToo, validToo⟩ := again.valid
  obtain rfl := Option.some.inj (read.symm.trans readToo)
  exact ⟨underway.asks.unique again.asks, Except.ok.inj (valid.symm.trans validToo)⟩

theorem truthful_of_refused {message : String} (cause : Refused t input o) :
    Truthful t input o (refuse message) t where
  code := .inr rfl
  success := iff_of_false nofun fun ⟨_, _, underway, _⟩ => underway.not_refused cause
  refused _ := ⟨rfl, rfl⟩
  underway allowed := absurd cause allowed
  apart _ _ underway := absurd cause underway.not_refused

theorem run_runOptions (placed : orders o = .ok asked) (t : Tree) :
    (runOptions Tree.disk input o).run t =
      match (Output.generateFile Tree.disk input (rootNameFor o input) asked).run t with
      | (.error refusal, t') =>
        (refuse ("failed to generate code from " ++ input ++ ": " ++ refusal.message), t')
      | (.ok reports, t') =>
        (⟨if reports.all (·.outcome.isOk) then 0 else 1, summary o.format reports⟩, t') := by
  rw [runOptions, placed]
  refine (StateT.run_bind
    (Output.generateFile Tree.disk input (rootNameFor o input) asked) _ t).trans ?_
  rcases (Output.generateFile Tree.disk input (rootNameFor o input) asked).run t with
    ⟨refusal | reports, t'⟩ <;> rfl

theorem run_generateFile_unreadable (absent : t.readText? input = none) :
    (Output.generateFile Tree.disk input rootName asked).run t = (.error .unreadable, t) := by
  have step : (Tree.disk.readText? input).run t = (none, t) := congrArg (·, t) absent
  rw [Output.generateFile, StateT.run_bind, step]
  rfl

theorem run_generateFile {text : String} (read : t.readText? input = some text) :
    (Output.generateFile Tree.disk input rootName asked).run t =
      match (Output.generate Tree.disk text rootName asked).run t with
      | (.error fault, t') => (.error (.invalid fault), t')
      | (.ok reports, t') => (.ok reports, t') := by
  have step : (Tree.disk.readText? input).run t = (some text, t) := congrArg (·, t) read
  rw [Output.generateFile, StateT.run_bind, step]
  refine (StateT.run_bind (Output.generate Tree.disk text rootName asked) _ t).trans ?_
  rcases (Output.generate Tree.disk text rootName asked).run t with ⟨fault | reports, t'⟩ <;> rfl

theorem id_injective : Function.Injective Language.id := by
  intro language other
  cases language <;> cases other <;> decide

theorem truthful_of_accounts (underway : Underway t input o asked schema)
    (accounts : List.Forall₂ (Output.Accounts schema (rootNameFor o input) t t' asked) asked
      reports) :
    Truthful t input o
      ⟨if reports.all (·.outcome.isOk) then 0 else 1, summary o.format reports⟩ t' := by
  obtain ⟨written, among, succeeded, stands, kept⟩ := exists_written accounts
  have every := all_isOk_iff accounts
  have distinct : ((successes reports).map fun s => s.1.target.language.id).Nodup := by
    have languages := underway.asks.nodup.sublist (among.map fun order => order.target.language)
    have ids := languages.map id_injective
    rw [List.map_map] at ids
    rw [kept, List.map_map]
    exact ids
  constructor
  case code => exact ite_eq_or_eq _ 0 1
  case success =>
    have zero : (if reports.all (·.outcome.isOk) then 0 else 1) = 0 ↔
        reports.all (·.outcome.isOk) = true := by simp
    refine (zero.trans every).trans ⟨fun all => ⟨asked, schema, underway, all⟩, ?_⟩
    rintro ⟨others, other, again, all⟩
    obtain ⟨rfl, rfl⟩ := underway.unique again
    exact all
  case refused => exact fun cause => absurd cause underway.not_refused
  case underway =>
    intro _
    have shows := shows_summary o.format distinct
    rw [kept] at shows
    exact ⟨asked, schema, underway, written, among, succeeded, stands, shows⟩
  case apart =>
    intro others other again separate plain order member
    obtain ⟨rfl, rfl⟩ := underway.unique again
    exact Output.succeeds_iff_of_separate separate underway.asks.nodup.of_map plain t member

def contactArguments : List String :=
  ["contact.jtd.json", "--root-name", "event", "--java-jackson-out", "java",
    "--java-jackson-package", "com.example", "--go-out", "out/go", "--go-package", "events",
    "--typescript-out=out/ts", "--log-format", "minimal"]

def contactTree : Tree :=
  ⟨(["contact.jtd.json"], .file Output.contactText.toUTF8) :: Output.blockedTree.entries⟩

end SchemaBindings.Command
