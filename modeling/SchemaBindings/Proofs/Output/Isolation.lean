import SchemaBindings.Proofs.Output.AtHome

/-! Targets that are written to directories beside each other. What is reported of each, and what it
leaves in its directory, are as if it had been alone. -/

namespace SchemaBindings.Output

open Binding (Rendered Target)
open Output.Path (IsLevel IsPlain home)
open Output.Tree (Alike Beside Confined Kept)

variable {t s t' : Tree} {results : List (Order × Except Unsupported Rendered)}
  {text rootName : String} {orders : List Order} {schema : Schema}

/-- No directory takes a step up, and no two of them are the same or one in the other. -/
structure Separate (orders : List Order) : Prop where
  level : ∀ order ∈ orders, IsLevel order.directory
  beside : orders.Pairwise fun a b => Beside (home a.directory) (home b.directory)

/-- All files that are rendered have plain names. -/
def PlainFiles (catalog : Catalog) (orders : List Order) : Prop :=
  ∀ order ∈ orders, ∀ r, order.target.render catalog = .ok r → ∀ f ∈ r.files, IsPlain f.name

/-- The report is what the order comes to alone, and its home holds what that leaves there. -/
def AsAlone (t s : Tree) (entry : Order × Except Unsupported Rendered) (first : Report) : Prop :=
  ∃ alone, (report Tree.disk entry.1 entry.2).run t = (first, alone) ∧
    Alike (home entry.1.directory) alone s

section Running

variable (homely : ∀ entry ∈ results, Homely entry.1 entry.2)

include homely

theorem confined_reportAll (t : Tree) :
    Confined (results.map fun entry => home entry.1.directory) t
      ((reportAll Tree.disk results).run t).2 := by
  induction results generalizing t with
  | nil => exact .refl _ t
  | cons entry rest ih =>
    obtain ⟨first, later⟩ := List.forall_mem_cons.1 homely
    rw [run_reportAll_cons]
    exact (confined_report first t).cons (ih later _)

/-- On a tree that each home finds as in another one, each report is the same as alone on the other,
and so is what the home holds at the end. -/
theorem reportAll_isolated
    (beside : results.Pairwise fun a b => Beside (home a.1.directory) (home b.1.directory))
    (alike : ∀ entry ∈ results, Alike (home entry.1.directory) t s) :
    List.Forall₂ (AsAlone t ((reportAll Tree.disk results).run s).2) results
      ((reportAll Tree.disk results).run s).1 := by
  induction results generalizing s with
  | nil => exact .nil
  | cons entry rest ih =>
    obtain ⟨here, later⟩ := List.forall_mem_cons.1 homely
    obtain ⟨besideRest, besideLater⟩ := List.pairwise_cons.1 beside
    obtain ⟨alikeHere, alikeLater⟩ := List.forall_mem_cons.1 alike
    obtain ⟨first, alone, next, runAlone, run, same⟩ := report_alike here alikeHere
    rw [run_reportAll_cons, run]
    have confined := confined_report here s
    rw [run] at confined
    refine .cons ⟨alone, runAlone, same.trans ?_⟩ (ih later besideLater fun other member => ?_)
    · -- The reports after this one are about homes beside it.
      refine (confined_reportAll later next).alike fun other member => ?_
      obtain ⟨behind, listed, rfl⟩ := List.mem_map.1 member
      exact besideRest behind listed
    · refine (alikeLater other member).trans (confined.alike ?_)
      exact List.forall_mem_singleton.2 (besideRest other member).symm

end Running

/-- All that is reported as written can be read again at the end. -/
theorem holds_of_report {order : Order} {result : Except Unsupported Rendered} {first : Report}
    (homely : Homely order result) (run : (report Tree.disk order result).run t = (first, s))
    (alike : Alike (home order.directory) s t') : Holds result order t' first := by
  intro w done
  obtain ⟨_, _, again, reported⟩ := reported_report order t result homely.apart
  obtain ⟨rfl, rfl⟩ := Prod.mk.inj (again.symm.trans run)
  obtain ⟨r, _, rfl, same, makes, -, delivered⟩ := reported.delivered done
  refine ⟨r, rfl, same, fun f member => ?_⟩
  exact read?_of_alike homely.level (Tree.usable_of_makes makes) (homely.plain r rfl f member)
    alike (delivered.holds f member)

theorem homely_resultsOf (separate : Separate orders)
    (plain : PlainFiles (Catalog.ofSchema schema rootName) orders) :
    ∀ entry ∈ resultsOf schema rootName orders, Homely entry.1 entry.2 := by
  intro entry member
  obtain ⟨order, listed, rfl⟩ := List.mem_map.1 member
  exact ⟨separate.level order listed, plain order listed, fun r renders =>
    apart_of_render (Catalog.linked_ofSchema schema rootName) renders _⟩

theorem beside_resultsOf (separate : Separate orders) :
    (resultsOf schema rootName orders).Pairwise
      fun a b => Beside (home a.1.directory) (home b.1.directory) :=
  List.pairwise_map.2 separate.beside

/-- What is reported of an order and what its directory holds at the end are as after a run for it
alone. All that is reported as written holds the text that was rendered. -/
structure Isolated (text rootName : String) (schema : Schema) (t t' : Tree) (order : Order)
    (first : Report) : Prop where
  own : first.order = order
  alone : ∃ last, (generate Tree.disk text rootName [order]).run t = (.ok [first], last) ∧
    ∀ p, home order.directory <+: p → t'.entry? p = last.entry? p
  holds : Holds (order.target.render (Catalog.ofSchema schema rootName)) order t' first

/-- The hint for Go is about a container, and stands at a string. -/
def contactText : String :=
  "\x7b\"definitions\":\x7b\"address\":\x7b\"properties\":\x7b\x7d\x7d\x7d," ++
    "\"properties\":\x7b\"home\":\x7b\"ref\":\"address\"\x7d,\"name\":" ++
    "\x7b\"type\":\"string\",\"metadata\":\x7b\"goContainer\":\"x.List\"\x7d\x7d\x7d\x7d"

def contactOrders : List Order :=
  [addressOrder, ⟨⟨.go, "events"⟩, "out/go"⟩, ⟨⟨.typescript, ""⟩, "out/ts"⟩]

theorem separate_contactOrders : Separate contactOrders where
  level := by decide +kernel
  beside := by decide +kernel

theorem plainFiles_contactOrders (schema : Schema) (rootName : String) :
    PlainFiles (Catalog.ofSchema schema rootName) contactOrders := by
  have slashless : ∀ order ∈ contactOrders, '/' ∉ order.target.package.toList := by decide +kernel
  intro order member r renders
  exact Binding.isPlain_of_render (Catalog.linked_ofSchema schema rootName) renders fun _ =>
    slashless order member

/-- One target cannot be written and another one cannot be rendered. -/
theorem outcomes_contact :
    (fun step : Except Fault (List Report) × Tree =>
      step.1.toOption.map (List.map (·.outcome.isOk)))
      ((generate Tree.disk contactText "event" contactOrders).run blockedTree) =
    some [false, false, true] := by
  decide +kernel

end SchemaBindings.Output
