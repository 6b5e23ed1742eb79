import SchemaBindings.Proofs.Output.Isolation

/-! Generating twice. The second run meets the tree that the first one left and ends as that one did,
and it leaves the tree as it is. -/

namespace SchemaBindings.Output

open Binding (Rendered)
open Output.Path (home)
open Output.Tree (Alike)

variable {t s t' : Tree} {results : List (Order × Except Unsupported Rendered)}
  {reports : List Report} {text rootName : String} {orders : List Order}

/-- Where each home holds what its own target left there, all reports are the same again and nothing
changes. -/
theorem reportAll_again (homely : ∀ entry ∈ results, Homely entry.1 entry.2)
    (ended : List.Forall₂ (AsAlone t s) results reports) :
    ∃ s', (reportAll Tree.disk results).run s = (reports, s') ∧ ∀ p, s'.entry? p = s.entry? p := by
  induction results generalizing s reports with
  | nil =>
    cases ended
    exact ⟨s, rfl, fun _ => rfl⟩
  | cons entry rest ih =>
    obtain ⟨here, later⟩ := List.forall_mem_cons.1 homely
    obtain ⟨first, others, ⟨alone, run, alike⟩, behind, rfl⟩ := List.forall₂_cons_left_iff.1 ended
    obtain ⟨next, again, same⟩ := report_again here run alike
    have unchanged (place : List String) : Alike place s next :=
      ⟨fun p _ => .inl (same p), fun p _ => same p⟩
    have still : List.Forall₂ (AsAlone t next) rest others :=
      behind.imp fun other _ ⟨left, runAlone, held⟩ =>
        ⟨left, runAlone, held.trans (unchanged _)⟩
    obtain ⟨last, runs, stays⟩ := ih later still
    refine ⟨last, ?_, fun p => (stays p).trans (same p)⟩
    rw [run_reportAll_cons, again, runs]

end SchemaBindings.Output
