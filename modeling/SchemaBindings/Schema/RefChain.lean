import SchemaBindings.Schema.Basic
import SchemaBindings.Schema.Fault

/-! Definitions that are references and nothing else form chains. A chain that comes back to one
of its own names describes no type. -/

namespace SchemaBindings.Schema

/-- The definitions that a chain has not passed yet. -/
def unvisited (definitions : List (String × Node)) (visited : List String) :
    List (String × Node) :=
  definitions.filter (fun d => !visited.contains d.1)

theorem length_unvisited_lt {definitions : List (String × Node)} {visited : List String}
    {name : String} {node : Node} (found : definitions.lookup name = some node)
    (fresh : visited.contains name = false) :
    (unvisited definitions (name :: visited)).length < (unvisited definitions visited).length := by
  induction definitions with
  | nil => simp at found
  | cons head rest ih =>
    obtain ⟨key, value⟩ := head
    have shrinks : (unvisited rest (name :: visited)).length ≤ (unvisited rest visited).length := by
      simp only [unvisited, ← List.countP_eq_length_filter]
      apply List.countP_mono_left
      intro d _ h
      simp only [List.contains_cons, Bool.not_eq_true', Bool.or_eq_false_iff] at h ⊢
      exact h.2
    rw [List.lookup_cons] at found
    split at found
    · rename_i heq
      have : name = key := by simpa using heq
      subst this
      simp only [unvisited, List.contains_cons, List.filter_cons, fresh] at shrinks ⊢
      simp only [BEq.rfl, Bool.true_or, Bool.not_true, Bool.false_eq_true, if_false, Bool.not_false,
        if_true, List.length_cons]
      omega
    · have := ih found
      simp only [unvisited, List.filter_cons, List.contains_cons] at this ⊢
      split <;> split <;> grind

/-- Follows references from a name and gives the first name met a second time. -/
def repeatedFrom (definitions : List (String × Node)) (visited : List String) (name : String) :
    Option String :=
  match found : definitions.lookup name with
  | none => none
  | some node =>
    match node.form with
    | .ref target =>
      if fresh : visited.contains name = false then
        have := length_unvisited_lt found fresh
        repeatedFrom definitions (name :: visited) target
      else some name
    | _ => none
termination_by (unvisited definitions visited).length
decreasing_by assumption

/-- Every definition is tried, in key order, as the start of a chain. -/
def checkRefChains (definitions : List (String × Node)) : Except Fault Unit :=
  match definitions.findSome? (fun d => repeatedFrom definitions [] d.1) with
  | some name => .error ⟨.cyclicRef name, Pointer.root.descend ["definitions", name]⟩
  | none => .ok ()

end SchemaBindings.Schema
