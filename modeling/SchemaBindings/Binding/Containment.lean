import SchemaBindings.Catalog.Basic

/-! Which declarations hold which by value, that is not through a list or a map. A declaration that
would hold itself needs an indirection. -/

namespace SchemaBindings.Binding

def direct? (use : TypeUse) : Option Nat :=
  match use.kind with
  | .declared id => some id
  | _ => none

/-- The declarations that a shape holds by value. -/
def held : Shape → List Nat
  | .record members _ => members.filterMap (fun m => direct? m.type)
  | .variant _ _ members _ => members.filterMap (fun m => direct? m.type)
  | .union _ variants => variants
  | .wrapper inner => (direct? inner).toList
  | .enumeration _ => []

/-- For each declaration those it holds. -/
def holdings (catalog : Catalog) : List (List Nat) :=
  catalog.declarations.map (fun d => held d.shape)

def edgeCount : List (List Nat) → Nat
  | [] => 0
  | targets :: rest => targets.length + edgeCount rest

/-- The vertices that a search has not reached. -/
def unseen (edges : List (List Nat)) (seen : List Nat) : List Nat :=
  (List.range edges.length).filter (fun v => !seen.contains v)

theorem length_le_edgeCount {edges : List (List Nat)} {v : Nat} {targets : List Nat}
    (h : edges[v]? = some targets) : targets.length ≤ edgeCount edges := by
  induction edges generalizing v with
  | nil => simp at h
  | cons e rest ih =>
    cases v with
    | zero =>
      simp only [List.getElem?_cons_zero, Option.some.injEq] at h
      simp only [edgeCount, h]
      omega
    | succ v =>
      have := ih (v := v) (by simpa using h)
      simp only [edgeCount]
      omega

theorem length_filter_unseen_lt {vertices seen : List Nat} {v : Nat} (present : v ∈ vertices)
    (fresh : seen.contains v = false) :
    (vertices.filter (fun w => !(v :: seen).contains w)).length <
      (vertices.filter (fun w => !seen.contains w)).length := by
  induction vertices with
  | nil => cases present
  | cons w rest ih =>
    have shrinks : (rest.filter (fun w => !(v :: seen).contains w)).length ≤
        (rest.filter (fun w => !seen.contains w)).length := by
      simp only [← List.countP_eq_length_filter]
      apply List.countP_mono_left
      intro u _ h
      simp only [List.contains_cons, Bool.not_eq_true', Bool.or_eq_false_iff] at h ⊢
      exact h.2
    have fresh : v ∉ seen := by simpa using fresh
    by_cases same : w = v
    · subst same
      rw [List.filter_cons_of_neg (by simp), List.filter_cons_of_pos (by simpa using fresh)]
      simp only [List.length_cons]
      omega
    · have step := ih ((List.mem_cons.1 present).resolve_left (Ne.symm same))
      by_cases old : w ∈ seen
      · rw [List.filter_cons_of_neg (by simp [old]), List.filter_cons_of_neg (by simp [old])]
        exact step
      · rw [List.filter_cons_of_pos (by simp [old, same]), List.filter_cons_of_pos (by simp [old])]
        simp only [List.length_cons]
        omega

/-- The vertices in `seen` and all that edges lead to from the stack. Each vertex is left once. -/
def search (edges : List (List Nat)) (seen : List Nat) : List Nat → List Nat
  | [] => seen
  | v :: stack =>
    if fresh : seen.contains v = false then
      match known : edges[v]? with
      | some targets =>
        have : (unseen edges (v :: seen)).length < (unseen edges seen).length :=
          length_filter_unseen_lt
            (List.mem_range.2 (List.getElem?_eq_some_iff.1 known).1) fresh
        have := length_le_edgeCount known
        search edges (v :: seen) (targets ++ stack)
      | none => search edges seen stack
    else search edges seen stack
termination_by stack => (unseen edges seen).length * (edgeCount edges + 1) + stack.length
decreasing_by
  · have step := Nat.mul_le_mul_right (edgeCount edges + 1)
      (Nat.succ_le_of_lt ‹(unseen edges (v :: seen)).length < (unseen edges seen).length›)
    rw [Nat.succ_mul] at step
    simp only [List.length_append, List.length_cons]
    omega
  · simp only [List.length_cons]; omega
  · simp only [List.length_cons]; omega

/-- Whether `holder` would hold itself if it held `held` by value. -/
def closesCycle (edges : List (List Nat)) (holder held : Nat) : Bool :=
  holder == held || (search edges [] (edges[held]?.getD [])).contains holder

end SchemaBindings.Binding
