import SchemaBindings.Proofs.Binding.Searching

/-! The search for what a declaration holds is exact, and a graph of holdings has no cycle once each
edge that would close one is left out. -/

namespace SchemaBindings.Binding

open Relation (TransGen ReflTransGen)

variable {edges : List (List Nat)}

/-- What has entries of its own is reached exactly when edges lead to it. -/
theorem mem_search_iff {v w : Nat} (bound : w < edges.length) :
    w ∈ search edges [] (edges[v]?.getD []) ↔ TransGen (Holds edges) v w := by
  obtain ⟨n, turns⟩ : ∃ n, Turns edges n ⟨[], edges[v]?.getD []⟩
      ⟨search edges [] (edges[v]?.getD []), []⟩ := exists_turns_search [] (edges[v]?.getD [])
  exact (turns.keeps (searching_start edges v)).mem_seen_iff rfl bound

/-- An edge would close a cycle exactly when its end leads back to its start. -/
theorem closesCycle_iff {v w : Nat} (bound : v < edges.length) :
    closesCycle edges v w = true ↔ ReflTransGen (Holds edges) w v := by
  rw [closesCycle, Bool.or_eq_true, beq_iff_eq, List.contains_iff_mem, mem_search_iff bound,
    Relation.reflTransGen_iff_eq_or_transGen]

/-- Among edges that close no cycle and edges that lead away from all vertices of their kind, there
is no cycle. -/
theorem acyclic_of_not_closesCycle (edges : List (List Nat)) (exempt : Nat → Prop)
    {kept : Nat → Nat → Prop} (holds : ∀ v w, kept v w → Holds edges v w)
    (leaves : ∀ v w, kept v w → exempt v → ¬ exempt w)
    (clear : ∀ v w, kept v w → ¬ exempt v → closesCycle edges v w = false) (v : Nat) :
    ¬ TransGen kept v v := by
  have open' {v : Nat} (other : ¬ exempt v) : ¬ TransGen kept v v := by
    intro cycle
    obtain ⟨w, first, back⟩ := TransGen.head'_iff.1 cycle
    have closes := (closesCycle_iff (holds v w first).bound).2 (ReflTransGen.mono holds w v back)
    rw [clear v w first other] at closes
    cases closes
  intro cycle
  by_cases exempted : exempt v
  -- The cycle is rotated by one edge, to start where none is exempt.
  · obtain ⟨w, first, back⟩ := TransGen.head'_iff.1 cycle
    exact open' (leaves v w first exempted) (.tail' back first)
  · exact open' exempted cycle

end SchemaBindings.Binding
