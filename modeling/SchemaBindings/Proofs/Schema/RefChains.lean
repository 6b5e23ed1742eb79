import Mathlib.Logic.Relation
import SchemaBindings.Schema.RefChain

/-! Chains of definitions that are references and nothing else. Following one either comes to a name
that refers to nothing, after at most as many steps as there are definitions, or it runs into a
cycle; the check finds exactly the second. -/

namespace SchemaBindings.Schema

open Relation (TransGen)
open Keyed (keys)

variable {definitions : List (String × Node)}

/-- The first name is defined as a reference to the second. -/
def RefersTo (definitions : List (String × Node)) (name target : String) : Prop :=
  ∃ node, definitions.lookup name = some node ∧ node.form = .ref target

/-- From the first name, so many references lead to the second. -/
inductive Leads (definitions : List (String × Node)) : Nat → String → String → Prop
  | here {name : String} : Leads definitions 0 name name
  | step {steps : Nat} {name next last : String} (refers : RefersTo definitions name next)
      (rest : Leads definitions steps next last) : Leads definitions (steps + 1) name last

theorem RefersTo.unique {name target other : String} (h : RefersTo definitions name target)
    (k : RefersTo definitions name other) : target = other := by
  obtain ⟨node, found, form⟩ := h
  obtain ⟨node', found', form'⟩ := k
  cases found.symm.trans found'
  cases form.symm.trans form'
  rfl

theorem RefersTo.mem_keys {name target : String} (h : RefersTo definitions name target) :
    name ∈ keys definitions := by
  obtain ⟨node, found, -⟩ := h
  exact Keyed.mem_keys_iff_lookup.2 ⟨node, found⟩

theorem on_cycle_of_refers {name next : String} (refers : RefersTo definitions name next)
    (cycle : TransGen (RefersTo definitions) name name) :
    TransGen (RefersTo definitions) next next := by
  obtain ⟨other, first, back⟩ := Relation.TransGen.head'_iff.1 cycle
  cases first.unique refers
  exact Relation.TransGen.tail' back refers

theorem not_on_cycle_of_leads {steps : Nat} {name last : String}
    (leads : Leads definitions steps name last)
    (stops : ∀ target, ¬ RefersTo definitions last target) :
    ¬ TransGen (RefersTo definitions) name name := by
  induction leads with
  | here =>
    intro cycle
    obtain ⟨target, first, -⟩ := Relation.TransGen.head'_iff.1 cycle
    exact stops target first
  | step refers _ ih => exact fun cycle => ih stops (on_cycle_of_refers refers cycle)

theorem repeatedFrom_of_lookup {visited : List String} {name : String} {node : Node}
    (found : definitions.lookup name = some node) :
    repeatedFrom definitions visited name =
      match node.form with
      | .ref target =>
        if visited.contains name = false then repeatedFrom definitions (name :: visited) target
        else some name
      | _ => none := by
  rw [repeatedFrom]
  split
  · rename_i absent
    cases absent.symm.trans found
  · rename_i other same
    cases same.symm.trans found
    cases node.form with
    | ref target => simp only [dite_eq_ite]
    | _ => rfl

/-- What is met a second time lies on a cycle, when all that was passed leads to where it is. -/
theorem repeatedFrom_on_cycle {visited : List String} {name again : String}
    (passed : ∀ v ∈ visited, TransGen (RefersTo definitions) v name)
    (found : repeatedFrom definitions visited name = some again) :
    TransGen (RefersTo definitions) again again := by
  fun_induction repeatedFrom definitions visited name with
  | case1 => cases found
  | case2 visited name node known target form fresh _ ih =>
    have refers : RefersTo definitions name target := ⟨node, known, form⟩
    refine ih (fun v member => ?_) found
    rcases List.mem_cons.1 member with rfl | member
    · exact .single refers
    · exact .tail (passed v member) refers
  | case3 visited name node known target form old =>
    cases found
    exact passed _ (by simpa using old)
  | case4 => cases found

/-- When nothing is met twice, the chain ends. A definition that it ends at was not passed before
and so makes the chain shorter by one. -/
theorem leads_of_repeatedFrom_eq_none {visited : List String} {name : String}
    (passed : ∀ v ∈ visited, ∃ target, RefersTo definitions v target)
    (clear : repeatedFrom definitions visited name = none) :
    ∃ steps last, Leads definitions steps name last ∧
      (∀ target, ¬ RefersTo definitions last target) ∧
      steps ≤ (unvisited definitions visited).length ∧
      (last ∈ keys definitions → steps < (unvisited definitions visited).length) := by
  fun_induction repeatedFrom definitions visited name with
  | case1 visited name unknown =>
    have absent : name ∉ keys definitions := Keyed.lookup_eq_none_iff_keys.1 unknown
    exact ⟨0, name, .here, fun target refers => absent refers.mem_keys, Nat.zero_le _,
      fun known => (absent known).elim⟩
  | case2 visited name node known target form fresh shorter ih =>
    have refers : RefersTo definitions name target := ⟨node, known, form⟩
    have passed' : ∀ v ∈ name :: visited, ∃ target, RefersTo definitions v target := by
      intro v member
      rcases List.mem_cons.1 member with rfl | member
      · exact ⟨target, refers⟩
      · exact passed v member
    obtain ⟨steps, last, leads, stops, bound, inside⟩ := ih passed' clear
    exact ⟨steps + 1, last, .step refers leads, stops, by omega,
      fun known => by have := inside known; omega⟩
  | case3 => cases clear
  | case4 visited name node known other =>
    have stops (target : String) : ¬ RefersTo definitions name target := by
      rintro ⟨node', known', form⟩
      cases known.symm.trans known'
      exact other target form
    have fresh : name ∉ visited := by
      intro member
      obtain ⟨target, refers⟩ := passed name member
      exact stops target refers
    have remains : (name, node) ∈ unvisited definitions visited :=
      List.mem_filter.2 ⟨Keyed.mem_of_lookup known, by simpa using fresh⟩
    exact ⟨0, name, .here, stops, Nat.zero_le _, fun _ => List.length_pos_of_mem remains⟩

theorem checkRefChains_eq_ok_iff_clear :
    checkRefChains definitions = .ok () ↔
      ∀ name ∈ keys definitions, repeatedFrom definitions [] name = none := by
  unfold checkRefChains
  split
  · rename_i name found
    simp only [reduceCtorEq, false_iff]
    intro clear
    obtain ⟨d, member, again⟩ := List.exists_of_findSome?_eq_some found
    rw [clear d.1 (List.mem_map_of_mem member)] at again
    cases again
  · rename_i none
    simp only [true_iff, keys, List.forall_mem_map]
    exact List.findSome?_eq_none_iff.1 none

/-- The definitions pass exactly when no reference-only chain is a cycle. -/
theorem checkRefChains_eq_ok :
    checkRefChains definitions = .ok () ↔
      ∀ name, ¬ TransGen (RefersTo definitions) name name := by
  rw [checkRefChains_eq_ok_iff_clear]
  constructor
  · intro clear name cycle
    obtain ⟨target, first, -⟩ := Relation.TransGen.head'_iff.1 cycle
    obtain ⟨steps, last, leads, stops, -⟩ :=
      leads_of_repeatedFrom_eq_none (by simp) (clear name first.mem_keys)
    exact not_on_cycle_of_leads leads stops cycle
  · intro acyclic name _
    cases found : repeatedFrom definitions [] name with
    | none => rfl
    | some again => exact (acyclic again (repeatedFrom_on_cycle (by simp) found)).elim

end SchemaBindings.Schema
