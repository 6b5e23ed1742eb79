import SchemaBindings.Proofs.Outcome
import SchemaBindings.Proofs.Schema.RefChains

/-! The walks of the check of reference chains, turn by turn. A walk stops after at most one turn
for each definition and one more. Where it meets a name again, it has come around the cycle that it
entered there. So the check fails just when some definition leads into a cycle, and what it reports
is where the least of these definitions enters one. -/

namespace SchemaBindings.Schema

open Relation (TransGen ReflTransGen)
open Keyed (keys Increasing)

variable {definitions : List (String × Node)}

section Cycles

/-- References and nothing else lead from the name back to it. -/
def OnCycle (definitions : List (String × Node)) (name : String) : Prop :=
  TransGen (RefersTo definitions) name name

def LeadsIntoCycle (definitions : List (String × Node)) (name : String) : Prop :=
  ∃ entry, ReflTransGen (RefersTo definitions) name entry ∧ OnCycle definitions entry

/-- Of the names that are met from the first one on, the second is the first on a cycle. -/
def EntersAt (definitions : List (String × Node)) (start entry : String) : Prop :=
  OnCycle definitions entry ∧ ∃ steps, Leads definitions steps start entry ∧
    ∀ earlier < steps, ∀ name, Leads definitions earlier start name → ¬ OnCycle definitions name

theorem Leads.snoc {steps : Nat} {start last target : String}
    (leads : Leads definitions steps start last) (refers : RefersTo definitions last target) :
    Leads definitions (steps + 1) start target := by
  induction leads with
  | here => exact .step refers .here
  | step first _ ih => exact .step first (ih refers)

theorem Leads.reached {steps : Nat} {start last : String}
    (leads : Leads definitions steps start last) :
    ReflTransGen (RefersTo definitions) start last := by
  induction leads with
  | here => exact .refl
  | step refers _ ih => exact .head refers ih

theorem Leads.transGen {steps : Nat} {start last : String}
    (leads : Leads definitions steps start last) (some' : 0 < steps) :
    TransGen (RefersTo definitions) start last := by
  cases leads with
  | here => exact absurd some' (Nat.lt_irrefl 0)
  | step refers rest => exact .head' refers rest.reached

theorem exists_leads {start last : String}
    (reached : ReflTransGen (RefersTo definitions) start last) :
    ∃ steps, Leads definitions steps start last := by
  induction reached with
  | refl => exact ⟨0, .here⟩
  | tail _ refers ih =>
    obtain ⟨steps, leads⟩ := ih
    exact ⟨steps + 1, leads.snoc refers⟩

/-- The way to a name is the start of every longer way. -/
theorem Leads.between {i j : Nat} {start name last : String}
    (short : Leads definitions i start name) (long : Leads definitions j start last) (le : i ≤ j) :
    Leads definitions (j - i) name last := by
  induction short generalizing j with
  | here => exact long
  | step refers _ ih =>
    cases long with
    | here => omega
    | step refers' rest =>
      cases refers.unique refers'
      rw [Nat.add_sub_add_right]
      exact ih rest (by omega)

theorem Leads.unique {steps : Nat} {start name other : String}
    (leads : Leads definitions steps start name) (leads' : Leads definitions steps start other) :
    name = other := by
  have between := leads.between leads' (Nat.le_refl steps)
  rw [Nat.sub_self] at between
  cases between
  rfl

/-- A cycle is never left. -/
theorem OnCycle.returns {name later : String} (cycle : OnCycle definitions name)
    (reached : ReflTransGen (RefersTo definitions) name later) :
    ReflTransGen (RefersTo definitions) later name := by
  induction reached using ReflTransGen.head_induction_on with
  | refl => exact .refl
  | head first _ ih =>
    obtain ⟨next, refers, back⟩ := TransGen.head'_iff.1 cycle
    cases first.unique refers
    exact (ih (on_cycle_of_refers first cycle)).trans back

theorem not_leadsIntoCycle_of_leads {steps : Nat} {start last : String}
    (leads : Leads definitions steps start last)
    (stops : ∀ target, ¬ RefersTo definitions last target) :
    ¬ LeadsIntoCycle definitions start := by
  rintro ⟨entry, reached, cycle⟩
  obtain ⟨way, toEntry⟩ := exists_leads reached
  rcases Nat.le_total way steps with le | le
  · exact not_on_cycle_of_leads (toEntry.between leads le) stops cycle
  · have onward := TransGen.trans_right (leads.between toEntry le).reached cycle
    obtain ⟨target, refers, -⟩ := TransGen.head'_iff.1 onward
    exact stops target refers

end Cycles

section Walks

/-- The names that a walk has passed, and the one that it stands at. -/
structure Walk where
  visited : List String
  name : String

def Walk.start (name : String) : Walk := ⟨[], name⟩

/-- A turn that goes on: the name is new, and it refers to the next one. -/
inductive Moves (definitions : List (String × Node)) : Walk → Walk → Prop
  | on {visited : List String} {name target : String} (refers : RefersTo definitions name target)
      (fresh : name ∉ visited) : Moves definitions ⟨visited, name⟩ ⟨name :: visited, target⟩

/-- A turn that stops, with the name that was met again if there is one. -/
inductive Stops (definitions : List (String × Node)) : Walk → Option String → Prop
  | ended {visited : List String} {name : String}
      (last : ∀ target, ¬ RefersTo definitions name target) : Stops definitions ⟨visited, name⟩ none
  | again {visited : List String} {name target : String} (refers : RefersTo definitions name target)
      (old : name ∈ visited) : Stops definitions ⟨visited, name⟩ (some name)

/-- From where a walk stands it takes so many turns, the one that stops it among them. -/
inductive Loops (definitions : List (String × Node)) : Nat → Walk → Option String → Prop
  | stop {w : Walk} {outcome : Option String} (stops : Stops definitions w outcome) :
      Loops definitions 1 w outcome
  | move {n : Nat} {w next : Walk} {outcome : Option String} (moves : Moves definitions w next)
      (rest : Loops definitions n next outcome) : Loops definitions (n + 1) w outcome

variable {start : String} {n : Nat} {w next : Walk} {outcome : Option String}

/-- What a walk keeps, when it has moved so many times: it has passed all that lies behind it and
nothing twice, and each move took one of the definitions that are left. -/
structure Trail (definitions : List (String × Node)) (start : String) (n : Nat) (w : Walk) :
    Prop where
  leads : Leads definitions n start w.name
  visited : ∀ name, name ∈ w.visited ↔ ∃ i < n, Leads definitions i start name
  apart : ∀ i j name, i < j → j < n → Leads definitions i start name →
    ¬ Leads definitions j start name
  room : n + (unvisited definitions w.visited).length ≤ definitions.length

theorem trail_start (start : String) : Trail definitions start 0 (.start start) where
  leads := .here
  visited := by simp [Walk.start]
  apart := by omega
  room := by
    rw [Nat.zero_add]
    exact List.length_filter_le ..

theorem Moves.keeps (moves : Moves definitions w next) (trail : Trail definitions start n w) :
    Trail definitions start (n + 1) next := by
  cases moves with
  | @on visited name target refers fresh =>
    have last : Leads definitions n start name := trail.leads
    have passed (other : String) : other ∈ visited ↔ ∃ i < n, Leads definitions i start other :=
      trail.visited other
    constructor
    case leads => exact last.snoc refers
    case visited =>
      intro other
      rw [List.mem_cons, passed]
      constructor
      · rintro (rfl | ⟨i, before, leads⟩)
        · exact ⟨n, Nat.lt_succ_self n, last⟩
        · exact ⟨i, Nat.lt_succ_of_lt before, leads⟩
      · rintro ⟨i, before, leads⟩
        rcases Nat.lt_succ_iff_lt_or_eq.1 before with before | rfl
        · exact .inr ⟨i, before, leads⟩
        · exact .inl (leads.unique last)
    case apart =>
      intro i j other less before first second
      rcases Nat.lt_succ_iff_lt_or_eq.1 before with before | rfl
      · exact trail.apart i j other less before first second
      · cases second.unique last
        exact fresh ((passed _).2 ⟨i, less, first⟩)
    case room =>
      obtain ⟨node, found, -⟩ := refers
      have new : visited.contains name = false := by simpa using fresh
      have fewer := length_unvisited_lt found new
      have room : n + (unvisited definitions visited).length ≤ definitions.length := trail.room
      dsimp only
      omega

theorem Loops.exists_trail {k : Nat} (loops : Loops definitions k w outcome)
    (trail : Trail definitions start n w) :
    ∃ m last, Trail definitions start m last ∧ Stops definitions last outcome ∧ n + k = m + 1 := by
  induction loops generalizing n with
  | stop stops => exact ⟨n, _, trail, stops, rfl⟩
  | move moves _ ih =>
    obtain ⟨m, last, trail, stops, total⟩ := ih (moves.keeps trail)
    exact ⟨m, last, trail, stops, by omega⟩

theorem Loops.le {k : Nat} (loops : Loops definitions k (.start start) outcome) :
    k ≤ definitions.length + 1 := by
  obtain ⟨m, last, trail, -, total⟩ := loops.exists_trail (trail_start start)
  have room := trail.room
  omega

/-- From a name that was met again, references lead to nothing but what was passed since. -/
theorem Trail.passed_since {k : Nat} {later : String} (trail : Trail definitions start n w)
    (less : k < n) (first : Leads definitions k start w.name)
    (reached : ReflTransGen (RefersTo definitions) w.name later) :
    ∃ i, k ≤ i ∧ i < n ∧ Leads definitions i start later := by
  induction reached with
  | refl => exact ⟨k, Nat.le_refl k, less, first⟩
  | tail _ refers ih =>
    obtain ⟨i, since, before, leads⟩ := ih
    rcases Nat.lt_or_eq_of_le (Nat.succ_le_of_lt before) with inside | rfl
    · exact ⟨i + 1, Nat.le_succ_of_le since, inside, leads.snoc refers⟩
    · cases (leads.snoc refers).unique trail.leads
      exact ⟨k, Nat.le_refl k, less, first⟩

/-- A name that is met again is where the walk entered a cycle. -/
theorem Stops.entersAt {entry : String} (stops : Stops definitions w (some entry))
    (trail : Trail definitions start n w) : EntersAt definitions start entry := by
  cases stops with
  | again refers old =>
    obtain ⟨k, less, first⟩ := (trail.visited entry).1 old
    have back := first.between trail.leads (Nat.le_of_lt less)
    have around : OnCycle definitions entry := back.transGen (Nat.sub_pos_of_lt less)
    refine ⟨around, k, first, fun earlier before name leads cycle => ?_⟩
    -- A cycle that was entered earlier would come back to that earlier name.
    have returns := cycle.returns (leads.between first (Nat.le_of_lt before)).reached
    obtain ⟨i, since, inside, again⟩ := trail.passed_since less first returns
    exact trail.apart earlier i name (Nat.lt_of_lt_of_le before since) inside leads again

theorem not_stops_of_moves (moves : Moves definitions w next) : ¬ Stops definitions w outcome := by
  intro stops
  cases moves with
  | on refers fresh =>
    cases stops with
    | ended last => exact last _ refers
    | again _ old => exact fresh old

theorem Moves.unique {other : Walk} (moves : Moves definitions w next)
    (moves' : Moves definitions w other) : other = next := by
  cases moves with
  | on refers _ =>
    cases moves' with
    | on refers' _ => rw [refers'.unique refers]

theorem Stops.unique {other : Option String} (stops : Stops definitions w outcome)
    (stops' : Stops definitions w other) : other = outcome := by
  cases stops with
  | ended last =>
    cases stops' with
    | ended => rfl
    | again refers _ => exact (last _ refers).elim
  | again refers _ =>
    cases stops' with
    | ended last => exact (last _ refers).elim
    | again => rfl

/-- There is one way to walk. -/
theorem Loops.unique {m : Nat} {other : Option String} (loops : Loops definitions n w outcome)
    (loops' : Loops definitions m w other) : m = n ∧ other = outcome := by
  induction loops generalizing m with
  | stop stops =>
    cases loops' with
    | stop stops' => exact ⟨rfl, stops.unique stops'⟩
    | move moves _ => exact (not_stops_of_moves moves stops).elim
  | move moves _ ih =>
    cases loops' with
    | stop stops => exact (not_stops_of_moves moves stops).elim
    | move moves' rest =>
      cases moves.unique moves'
      obtain ⟨rfl, rfl⟩ := ih rest
      exact ⟨rfl, rfl⟩

/-- The search for a repeated name walks like this. -/
theorem exists_loops (definitions : List (String × Node)) (visited : List String) (name : String) :
    ∃ n, Loops definitions n ⟨visited, name⟩ (repeatedFrom definitions visited name) := by
  fun_induction repeatedFrom definitions visited name with
  | case1 visited name unknown =>
    refine ⟨1, .stop (.ended ?_)⟩
    rintro target ⟨node, known, -⟩
    cases unknown.symm.trans known
  | case2 visited name node known target form fresh _ ih =>
    obtain ⟨n, rest⟩ := ih
    exact ⟨n + 1, .move (.on ⟨node, known, form⟩ (by simpa using fresh)) rest⟩
  | case3 visited name node known target form old =>
    exact ⟨1, .stop (.again ⟨node, known, form⟩ (by simpa using old))⟩
  | case4 visited name node known other =>
    refine ⟨1, .stop (.ended ?_)⟩
    rintro target ⟨node', known', form⟩
    cases known.symm.trans known'
    exact other target form

theorem entersAt_of_repeatedFrom {entry : String}
    (found : repeatedFrom definitions [] start = some entry) :
    EntersAt definitions start entry := by
  obtain ⟨k, loops⟩ := exists_loops definitions [] start
  rw [found] at loops
  obtain ⟨m, last, trail, stops, -⟩ := loops.exists_trail (trail_start start)
  exact stops.entersAt trail

end Walks

/-- The least of the definitions that lead into a cycle. -/
structure LeastIntoCycle (definitions : List (String × Node)) (start : String) : Prop where
  defined : start ∈ keys definitions
  leads : LeadsIntoCycle definitions start
  least : ∀ other ∈ keys definitions, LeadsIntoCycle definitions other → start ≤ other

theorem EntersAt.leadsIntoCycle {start entry : String} (enters : EntersAt definitions start entry) :
    LeadsIntoCycle definitions start := by
  obtain ⟨cycle, steps, leads, -⟩ := enters
  exact ⟨entry, leads.reached, cycle⟩

theorem EntersAt.not_onCycle {start entry : String} (enters : EntersAt definitions start entry)
    (other : start ≠ entry) : ¬ OnCycle definitions start := by
  obtain ⟨-, steps, leads, before⟩ := enters
  cases leads with
  | here => exact (other rfl).elim
  | step => exact before 0 (Nat.succ_pos _) start .here

theorem repeatedFrom_eq_none_iff {start : String} :
    repeatedFrom definitions [] start = none ↔ ¬ LeadsIntoCycle definitions start := by
  constructor
  · intro clear
    obtain ⟨steps, last, leads, stops, -⟩ := leads_of_repeatedFrom_eq_none (by simp) clear
    exact not_leadsIntoCycle_of_leads leads stops
  · intro clear
    cases found : repeatedFrom definitions [] start with
    | none => rfl
    | some entry => exact (clear (entersAt_of_repeatedFrom found).leadsIntoCycle).elim

/-- In key order, the first definition to lead into a cycle is the least. -/
theorem entersAt_of_checkRefChains (increasing : Increasing definitions) {fault : Fault}
    (failed : checkRefChains definitions = .error fault) :
    ∃ start entry, LeastIntoCycle definitions start ∧ EntersAt definitions start entry ∧
      fault = ⟨.cyclicRef entry, Pointer.root.descend ["definitions", entry]⟩ := by
  unfold checkRefChains at failed
  split at failed
  · rename_i entry found
    cases failed
    obtain ⟨before, d, after, rfl, again, clear⟩ := List.findSome?_eq_some_iff.1 found
    have enters := entersAt_of_repeatedFrom again
    refine ⟨d.1, entry, ⟨?_, enters.leadsIntoCycle, fun other member leads => ?_⟩, enters, rfl⟩
    · simp [keys]
    · obtain ⟨node, member⟩ := Keyed.mem_keys.1 member
      rcases List.mem_append.1 member with earlier | later
      · exact (repeatedFrom_eq_none_iff.1 (clear _ earlier) leads).elim
      · rcases List.mem_cons.1 later with rfl | later
        · exact String.le_refl _
        · have order := (List.pairwise_append.1 increasing).2.1
          exact String.not_lt.1 (String.lt_asymm ((List.pairwise_cons.1 order).1 _ later))
  · cases failed

/-- The check comes to an end on all definitions, also where they refer to what is not defined. It
passes when none leads into a cycle; else it reports where the least of those that do enters one. -/
theorem checkRefChains_reports_entry (schema : Schema)
    (increasing : Increasing schema.definitions) :
    (∀ start, ∃ n ≤ schema.definitions.length + 1, ∀ turns outcome,
      Loops schema.definitions turns (.start start) outcome ↔
        turns = n ∧ outcome = repeatedFrom schema.definitions [] start) ∧
    (checkRefChains schema.definitions = .ok () ↔
      ∀ name ∈ keys schema.definitions, ¬ LeadsIntoCycle schema.definitions name) ∧
    ∀ fault, checkRefChains schema.definitions = .error fault →
      ∃ start entry, LeastIntoCycle schema.definitions start ∧
        EntersAt schema.definitions start entry ∧
        fault = ⟨.cyclicRef entry, Pointer.root.descend ["definitions", entry]⟩ := by
  refine ⟨fun start => ?_, ?_, fun fault => entersAt_of_checkRefChains increasing⟩
  · obtain ⟨n, loops⟩ := exists_loops schema.definitions [] start
    refine ⟨n, loops.le, fun turns outcome => ⟨loops.unique, ?_⟩⟩
    rintro ⟨rfl, rfl⟩
    exact loops
  · rw [checkRefChains_eq_ok_iff_clear]
    simp only [repeatedFrom_eq_none_iff]

/-- The first definition refers to one of two that refer to each other. The second refers to one
that is missing. -/
def tailed : Schema :=
  ⟨⟨.empty, false, .empty⟩,
    [("a", ⟨.ref "c", false, .empty⟩), ("b", ⟨.ref "lost", false, .empty⟩),
     ("c", ⟨.ref "d", false, .empty⟩), ("d", ⟨.ref "c", false, .empty⟩)]⟩

theorem leadsIntoCycle_tailed : LeadsIntoCycle tailed.definitions "a" := by
  have toCycle : RefersTo tailed.definitions "a" "c" := ⟨_, rfl, rfl⟩
  have there : RefersTo tailed.definitions "c" "d" := ⟨_, rfl, rfl⟩
  have back : RefersTo tailed.definitions "d" "c" := ⟨_, rfl, rfl⟩
  exact ⟨"c", .single toCycle, .tail (.single there) back⟩

/-- The definition that is reported is not the one that the walk begins at, which is on no cycle. -/
theorem checkRefChains_tailed :
    Increasing tailed.definitions ∧
      checkRefChains tailed.definitions = .error ⟨.cyclicRef "c", ⟨"/definitions/c"⟩⟩ ∧
      LeastIntoCycle tailed.definitions "a" ∧ EntersAt tailed.definitions "a" "c" ∧
      ¬ OnCycle tailed.definitions "a" := by
  have increasing : Increasing tailed.definitions := by
    unfold Increasing
    decide +kernel
  have failed : checkRefChains tailed.definitions =
      .error ⟨.cyclicRef "c", ⟨"/definitions/c"⟩⟩ := eq_error_of_fault? (by decide +kernel)
  obtain ⟨start, entry, least, enters, same⟩ :=
    (checkRefChains_reports_entry tailed increasing).2.2 _ failed
  injection same with cause
  injection cause with sameEntry
  subst sameEntry
  obtain rfl : start = "a" := by
    have below := least.least "a" (by decide) leadsIntoCycle_tailed
    have defined : start ∈ ["a", "b", "c", "d"] := least.defined
    simp only [List.mem_cons, List.not_mem_nil, or_false] at defined
    rcases defined with rfl | rfl | rfl | rfl
    · rfl
    all_goals exact absurd below (by decide)
  exact ⟨increasing, failed, least, enters, enters.not_onCycle (by decide)⟩

end SchemaBindings.Schema
