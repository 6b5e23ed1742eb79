import Mathlib.Data.List.Nodup
import Mathlib.Logic.Relation
import SchemaBindings.Binding.Containment

/-! The search for what is held, turn by turn. A turn takes one vertex off the stack, and which one it
takes makes no difference: every search comes to an end, and it ends with all that edges lead to. -/

namespace SchemaBindings.Binding

open Relation (TransGen)

def Holds (edges : List (List Nat)) (v w : Nat) : Prop :=
  ∃ targets, edges[v]? = some targets ∧ w ∈ targets

theorem Holds.bound {edges : List (List Nat)} {v w : Nat} (holds : Holds edges v w) :
    v < edges.length := by
  obtain ⟨targets, known, -⟩ := holds
  exact (List.getElem?_eq_some_iff.1 known).1

/-- The vertices that a search has marked, and those that it still has to look at. -/
structure Search where
  seen : List Nat
  stack : List Nat

namespace Search

/-- A search begins with the targets of a vertex, the vertex itself is not marked. -/
def start (edges : List (List Nat)) (v : Nat) : Search := ⟨[], edges[v]?.getD []⟩

def Covers (s : Search) (w : Nat) : Prop := w ∈ s.seen ∨ w ∈ s.stack

/-- The targets of the vertices that are not marked, each counted as often as an edge leads to it. -/
def owed (edges : List (List Nat)) (seen : List Nat) : Nat :=
  ((unseen edges seen).flatMap fun v => edges[v]?.getD []).length

/-- The turns that are left: one for each vertex on the stack, and one for each that will be put there. -/
def cost (edges : List (List Nat)) (s : Search) : Nat := s.stack.length + owed edges s.seen

end Search

/-- A new vertex is marked and its targets are put on the stack. One that was marked before, or that
has no entry, is dropped. -/
inductive Turn (edges : List (List Nat)) : Search → Search → Prop
  | mark {seen stack rest next targets : List Nat} {v : Nat} (taken : stack.Perm (v :: rest))
      (fresh : v ∉ seen) (known : edges[v]? = some targets) (added : next.Perm (targets ++ rest)) :
      Turn edges ⟨seen, stack⟩ ⟨v :: seen, next⟩
  | drop {seen stack rest : List Nat} {v : Nat} (taken : stack.Perm (v :: rest))
      (spent : v ∈ seen ∨ edges[v]? = none) : Turn edges ⟨seen, stack⟩ ⟨seen, rest⟩

/-- So many turns lead from one state of a search to another. -/
inductive Turns (edges : List (List Nat)) : Nat → Search → Search → Prop
  | none (s : Search) : Turns edges 0 s s
  | turn {n : Nat} {s t u : Search} (first : Turn edges s t) (rest : Turns edges n t u) :
      Turns edges (n + 1) s u

variable {edges : List (List Nat)} {s t : Search}

section Ending

theorem unseen_perm {seen : List Nat} {v : Nat} (bound : v < edges.length) (fresh : v ∉ seen) :
    (unseen edges seen).Perm (v :: unseen edges (v :: seen)) := by
  have distinct : (unseen edges seen).Nodup := List.nodup_range.filter _
  have member : v ∈ unseen edges seen := by
    unfold unseen
    simp [bound, fresh]
  have left : (unseen edges seen).erase v = unseen edges (v :: seen) := by
    rw [distinct.erase_eq_filter]
    unfold unseen
    rw [List.filter_filter]
    apply List.filter_congr
    intro w _
    rw [List.contains_cons, Bool.not_or]
    rfl
  rw [← left]
  exact List.perm_cons_erase member

theorem owed_cons {seen targets : List Nat} {v : Nat} (known : edges[v]? = some targets)
    (fresh : v ∉ seen) :
    Search.owed edges seen = targets.length + Search.owed edges (v :: seen) := by
  have bound := (List.getElem?_eq_some_iff.1 known).1
  unfold Search.owed
  rw [((unseen_perm bound fresh).flatMap_right _).length_eq, List.flatMap_cons, List.length_append,
    known, Option.getD_some]

theorem edgeCount_eq_length (edges : List (List Nat)) : edgeCount edges = edges.flatten.length := by
  induction edges with
  | nil => rfl
  | cons targets rest ih => rw [edgeCount, ih, List.flatten_cons, List.length_append]

/-- Before anything is marked, all edges are still to come. -/
theorem owed_nil (edges : List (List Nat)) : Search.owed edges [] = edgeCount edges := by
  have all : unseen edges [] = List.range edges.length := by
    unfold unseen
    simp
  have each : (List.range edges.length).map (fun v => edges[v]?.getD []) = edges := by
    apply List.ext_getElem
    · simp
    · intro i _ inside
      simp [inside]
  unfold Search.owed
  rw [all, List.flatMap_def, each, edgeCount_eq_length]

/-- Each turn uses up one. -/
theorem Turn.cost_eq (turn : Turn edges s t) : t.cost edges + 1 = s.cost edges := by
  cases turn with
  | mark taken fresh known added =>
    have before := taken.length_eq
    have after := added.length_eq
    have owes := owed_cons known fresh
    simp only [List.length_cons, List.length_append] at before after
    unfold Search.cost
    dsimp only
    omega
  | drop taken spent =>
    have before := taken.length_eq
    simp only [List.length_cons] at before
    unfold Search.cost
    dsimp only
    omega

theorem Turns.cost_eq {n : Nat} (turns : Turns edges n s t) :
    t.cost edges + n = s.cost edges := by
  induction turns with
  | none => rfl
  | turn first _ ih =>
    have step := first.cost_eq
    omega

/-- A search goes on as long as anything is on its stack. -/
theorem exists_turn (some' : s.stack ≠ []) : ∃ t, Turn edges s t := by
  obtain ⟨seen, stack⟩ := s
  obtain ⟨v, rest, rfl⟩ := List.exists_cons_of_ne_nil some'
  by_cases old : v ∈ seen
  · exact ⟨_, .drop (List.Perm.refl _) (.inl old)⟩
  · cases known : edges[v]? with
    | none => exact ⟨_, .drop (List.Perm.refl _) (.inr known)⟩
    | some targets => exact ⟨_, .mark (List.Perm.refl _) old known (List.Perm.refl _)⟩

end Ending

section Reaching

/-- What a search from a vertex keeps: it covers nothing but what edges lead to, and all targets of the
vertex itself and of those that are marked. -/
structure Searching (edges : List (List Nat)) (v : Nat) (s : Search) : Prop where
  sound : ∀ w, s.Covers w → TransGen (Holds edges) v w
  first : ∀ w, Holds edges v w → w < edges.length → s.Covers w
  later : ∀ u ∈ s.seen, ∀ w, Holds edges u w → w < edges.length → s.Covers w

theorem searching_start (edges : List (List Nat)) (v : Nat) :
    Searching edges v (.start edges v) := by
  constructor
  case sound =>
    rintro w (marked | waiting)
    · cases marked
    · cases known : edges[v]? with
      | none => simp [Search.start, known] at waiting
      | some targets =>
        have inside : w ∈ targets := by simpa [Search.start, known] using waiting
        exact .single ⟨targets, known, inside⟩
  case first =>
    rintro w ⟨targets, known, inside⟩ _
    right
    simpa [Search.start, known] using inside
  case later =>
    intro u marked
    cases marked

/-- Nothing that has edges of its own is lost in a turn. -/
theorem Turn.covers (turn : Turn edges s t) {w : Nat} (bound : w < edges.length)
    (covered : s.Covers w) : t.Covers w := by
  cases turn with
  | mark taken fresh known added =>
    rcases covered with marked | waiting
    · exact .inl (List.mem_cons_of_mem _ marked)
    · rcases List.mem_cons.1 (taken.mem_iff.1 waiting) with rfl | waiting
      · exact .inl List.mem_cons_self
      · exact .inr (added.mem_iff.2 (List.mem_append_right _ waiting))
  | drop taken spent =>
    rcases covered with marked | waiting
    · exact .inl marked
    · rcases List.mem_cons.1 (taken.mem_iff.1 waiting) with rfl | waiting
      · apply Or.inl
        apply spent.resolve_right
        intro unknown
        exact Nat.not_lt_of_le (List.getElem?_eq_none_iff.1 unknown) bound
      · exact .inr waiting

theorem Turn.keeps {v : Nat} (turn : Turn edges s t) (searching : Searching edges v s) :
    Searching edges v t := by
  have first (w : Nat) (holds : Holds edges v w) (bound : w < edges.length) : t.Covers w :=
    turn.covers bound (searching.first w holds bound)
  cases turn with
  | @mark seen stack rest next targets u taken fresh known added =>
    have onStack : u ∈ stack := taken.mem_iff.2 List.mem_cons_self
    have reached : TransGen (Holds edges) v u := searching.sound u (.inr onStack)
    refine ⟨?_, first, ?_⟩
    · rintro w (marked | waiting)
      · rcases List.mem_cons.1 marked with rfl | marked
        · exact reached
        · exact searching.sound w (.inl marked)
      · rcases List.mem_append.1 (added.mem_iff.1 waiting) with target | waiting
        · exact reached.tail ⟨targets, known, target⟩
        · exact searching.sound w (.inr (taken.mem_iff.2 (List.mem_cons_of_mem _ waiting)))
    · intro u' marked w holds bound
      rcases List.mem_cons.1 marked with rfl | marked
      · obtain ⟨_, same, inside⟩ := holds
        cases known.symm.trans same
        exact .inr (added.mem_iff.2 (List.mem_append_left _ inside))
      · exact (Turn.mark taken fresh known added).covers bound
          (searching.later u' marked w holds bound)
  | @drop seen stack rest u taken spent =>
    refine ⟨?_, first, ?_⟩
    · rintro w (marked | waiting)
      · exact searching.sound w (.inl marked)
      · exact searching.sound w (.inr (taken.mem_iff.2 (List.mem_cons_of_mem _ waiting)))
    · intro u' marked w holds bound
      exact (Turn.drop taken spent).covers bound (searching.later u' marked w holds bound)

theorem Turns.keeps {n v : Nat} (turns : Turns edges n s t) (searching : Searching edges v s) :
    Searching edges v t := by
  induction turns with
  | none => exact searching
  | turn first _ ih => exact ih (first.keeps searching)

/-- With nothing left on the stack, what has edges of its own is marked just when edges lead to it. -/
theorem Searching.mem_seen_iff {v : Nat} (searching : Searching edges v s) (done : s.stack = [])
    {w : Nat} (bound : w < edges.length) : w ∈ s.seen ↔ TransGen (Holds edges) v w := by
  have marked {w : Nat} (covered : s.Covers w) : w ∈ s.seen := by
    rcases covered with marked | waiting
    · exact marked
    · rw [done] at waiting
      cases waiting
  constructor
  · intro member
    exact searching.sound w (.inl member)
  · intro path
    -- The path is followed from its start, and every vertex on it but the last has an edge.
    induction path with
    | single holds => exact marked (searching.first _ holds bound)
    | tail _ holds ih => exact marked (searching.later _ (ih holds.bound) _ holds bound)

end Reaching

/-- The search that always takes the vertex on top is one of these. -/
theorem exists_turns_search (seen stack : List Nat) :
    ∃ n, Turns edges n ⟨seen, stack⟩ ⟨search edges seen stack, []⟩ := by
  fun_induction search edges seen stack with
  | case1 seen => exact ⟨0, .none _⟩
  | case2 seen v stack fresh targets known _ _ ih =>
    obtain ⟨n, rest⟩ := ih
    have new : v ∉ seen := by simpa using fresh
    exact ⟨n + 1, .turn (.mark (List.Perm.refl _) new known (List.Perm.refl _)) rest⟩
  | case3 seen v stack fresh unknown ih =>
    obtain ⟨n, rest⟩ := ih
    exact ⟨n + 1, .turn (.drop (List.Perm.refl _) (.inr unknown)) rest⟩
  | case4 seen v stack old ih =>
    obtain ⟨n, rest⟩ := ih
    have member : v ∈ seen := by simpa using old
    exact ⟨n + 1, .turn (.drop (List.Perm.refl _) (.inl member)) rest⟩

end SchemaBindings.Binding
