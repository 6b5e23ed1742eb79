import Mathlib.Order.Bounds.Defs
import SchemaBindings.Proofs.Naming.Claims

/-! What comes of requests to a scope. The search for a number has no bound of its own; it ends
before it has tried as many numbers as there are taken names. After any requests, the claimed names
are distinct, none was reserved before, and the scope holds what was reserved or claimed. -/

namespace SchemaBindings.Naming.Scope

section Searching

/-- Numbers are tried one after the other, by a counter that goes no further than `greatest`. From
`k` on the search ends at `n`. Where the counter would overflow, there is no step. -/
inductive Search (s : Scope) (base : String) (greatest : Nat) : Nat → Nat → Prop
  | free {k : Nat} (fresh : s.contains (numbered base k) = false) : Search s base greatest k k
  | next {k n : Nat} (taken : s.contains (numbered base k) = true) (room : k < greatest)
      (later : Search s base greatest (k + 1) n) : Search s base greatest k n

variable {s : Scope} {base name : String} {greatest k n : Nat}

theorem contains_eq_false : s.contains name = false ↔ name ∉ s.names := by
  rw [← Bool.not_eq_true, contains_iff, mem_names]

theorem search_of_least (fresh : numbered base (k + n) ∉ s.names)
    (least : ∀ j < n, numbered base (k + j) ∈ s.names) (room : k + n ≤ greatest) :
    Search s base greatest k (k + n) := by
  induction n generalizing k with
  | zero => exact .free (contains_eq_false.2 fresh)
  | succ n ih =>
    have shift (j : Nat) : k + 1 + j = k + (j + 1) := by omega
    have here : s.contains (numbered base k) = true :=
      contains_iff.2 (mem_names.1 (least 0 (by omega)))
    refine .next here (by omega) ?_
    rw [← shift n]
    refine ih (shift n ▸ fresh) (fun j less => ?_) (by omega)
    exact shift j ▸ least (j + 1) (by omega)

/-- A search has one end. -/
theorem Search.unique {m : Nat} (first : Search s base greatest k n)
    (second : Search s base greatest k m) : n = m := by
  induction first with
  | free fresh =>
    cases second with
    | free => rfl
    | next taken => cases taken.symm.trans fresh
  | next taken _ _ ih =>
    cases second with
    | free fresh => cases taken.symm.trans fresh
    | next _ _ later => exact ih later

/-- What comes of a claim. The name is free before it and taken after it, and nothing else changes
in the scope. A base that is free is the name itself; behind one that is taken stands the least
number that makes it free. A counter that can count the taken names finds this number. -/
structure Claimed (s : Scope) (base name : String) (after : Scope) : Prop where
  free : base ∉ s.names → name = base
  taken : base ∈ s.names → ∃ k < s.names.card, name = numbered base k ∧
    IsLeast {k | numbered base k ∉ s.names} k ∧
    ∀ greatest n, s.names.card ≤ greatest → (Search s base greatest 0 n ↔ n = k)
  fresh : name ∉ s.names
  added : after.names = insert name s.names

theorem names_reserve : (s.reserve name).names = insert name s.names := List.toFinset_cons

theorem claimed_claim (s : Scope) (base : String) :
    Claimed s base (s.claim base).1 (s.claim base).2 := by
  refine ⟨fun absent => free_of_not_mem (mt mem_names.2 absent), fun taken => ?_,
    mt mem_names.1 (free_not_mem s base), names_reserve⟩
  obtain ⟨k, same, fresh, below⟩ := free_of_mem (mem_names.1 taken)
  have fresh : numbered base k ∉ s.names := mt mem_names.1 fresh
  have below : ∀ j < k, numbered base j ∈ s.names := fun j less => mem_names.2 (below j less)
  have bound := lt_card_names taken below
  refine ⟨k, bound, same, ⟨fresh, fun j other => ?_⟩, fun greatest n counts => ?_⟩
  · by_contra less
    exact other (below j (by omega))
  · have ends : Search s base greatest 0 k := by
      have found : Search s base greatest 0 (0 + k) :=
        search_of_least (by simpa using fresh) (by simpa using below) (by omega)
      simpa using found
    exact ⟨fun search => search.unique ends, fun same => same ▸ ends⟩

end Searching

section Requests

inductive Request
  | reserve (name : String)
  | claim (base : String)

/-- What a request puts into a scope. -/
inductive Entry
  | reserved (name : String)
  | claimed (name : String)
  deriving DecidableEq, Repr

def Entry.name : Entry → String
  | .reserved name => name
  | .claimed name => name

def Entry.claimed? : Entry → Option String
  | .reserved _ => none
  | .claimed name => some name

theorem Entry.claimed?_eq_some {entry : Entry} {name : String} :
    entry.claimed? = some name ↔ entry = .claimed name := by
  cases entry <;> simp [claimed?]

def answer (s : Scope) : Request → Entry × Scope
  | .reserve name => (.reserved name, s.reserve name)
  | .claim base =>
    let (name, s) := s.claim base
    (.claimed name, s)

/-- Answers requests one after the other. -/
def answerAll (s : Scope) : List Request → List Entry × Scope
  | [] => ([], s)
  | request :: rest =>
    let (entry, s) := s.answer request
    let (entries, s) := s.answerAll rest
    (entry :: entries, s)

/-- A reserved name is entered as it is, and a claimed one with a number behind it where need be. -/
inductive Answers : Request → Entry → Prop
  | reserve (name : String) : Answers (.reserve name) (.reserved name)
  | claim {base name : String} (own : name = base ∨ ∃ k, name = numbered base k) :
    Answers (.claim base) (.claimed name)

/-- What comes of requests to an empty scope. -/
structure History (requests : List Request) (entries : List Entry) (after : Scope) : Prop where
  answers : List.Forall₂ Answers requests entries
  distinct : (entries.filterMap Entry.claimed?).Nodup
  unreserved : entries.Pairwise fun earlier later =>
    ∀ name, earlier = .reserved name → later ≠ .claimed name
  contains : ∀ name, after.contains name = true ↔
    .reserved name ∈ entries ∨ .claimed name ∈ entries

variable (s : Scope) (request : Request) (requests : List Request)

theorem names_answer : (s.answer request).2.names = insert (s.answer request).1.name s.names := by
  cases request <;> exact names_reserve

theorem not_mem_of_claimed {name : String} (claimed : (s.answer request).1 = .claimed name) :
    name ∉ s.names := by
  cases request with
  | reserve => cases claimed
  | claim base =>
    obtain rfl := Entry.claimed.inj claimed
    exact (claimed_claim s base).fresh

theorem answers_answer : Answers request (s.answer request).1 := by
  cases request with
  | reserve name => exact .reserve name
  | claim base => exact .claim (free_eq s base)

theorem answers_answerAll : List.Forall₂ Answers requests (s.answerAll requests).1 := by
  induction requests generalizing s with
  | nil => exact .nil
  | cons request rest ih => exact .cons (answers_answer s request) (ih _)

theorem mem_names_answerAll (name : String) :
    name ∈ (s.answerAll requests).2.names ↔
      name ∈ s.names ∨ ∃ entry ∈ (s.answerAll requests).1, entry.name = name := by
  induction requests generalizing s with
  | nil => simp [answerAll]
  | cons request rest ih =>
    simp only [answerAll, ih, names_answer, Finset.mem_insert, List.exists_mem_cons_iff]
    tauto

theorem claimed_not_mem_names {name : String}
    (claimed : .claimed name ∈ (s.answerAll requests).1) : name ∉ s.names := by
  induction requests generalizing s with
  | nil => cases claimed
  | cons request rest ih =>
    rcases List.mem_cons.1 claimed with first | later
    · exact not_mem_of_claimed s request first.symm
    · have apart := ih (s.answer request).2 later
      rw [names_answer, Finset.mem_insert, not_or] at apart
      exact apart.2

/-- A claimed name differs from all names that were entered before. -/
theorem pairwise_answerAll : (s.answerAll requests).1.Pairwise fun earlier later =>
    ∀ name, later = .claimed name → earlier.name ≠ name := by
  induction requests generalizing s with
  | nil => exact .nil
  | cons request rest ih =>
    refine List.pairwise_cons.2 ⟨?_, ih _⟩
    rintro later listed name rfl same
    have apart := claimed_not_mem_names (s.answer request).2 rest listed
    rw [names_answer, Finset.mem_insert, not_or] at apart
    exact apart.1 same.symm

theorem history_answerAll :
    History requests (empty.answerAll requests).1 (empty.answerAll requests).2 := by
  have apart := pairwise_answerAll empty requests
  refine ⟨answers_answerAll empty requests, ?_, apart.imp fun {earlier later} other name => ?_,
    fun name => ?_⟩
  · refine List.pairwise_filterMap.2 (apart.imp fun {earlier later} other => ?_)
    intro first earlierClaimed second laterClaimed
    obtain rfl := Entry.claimed?_eq_some.1 earlierClaimed
    exact other second (Entry.claimed?_eq_some.1 laterClaimed)
  · rintro rfl claimed
    exact other name claimed rfl
  · have spelled (entry : Entry) :
        entry.name = name ↔ entry = .reserved name ∨ entry = .claimed name := by
      cases entry <;> simp [Entry.name]
    rw [contains_iff, ← mem_names, mem_names_answerAll]
    simp [names, empty, spelled, and_or_left, exists_or]

end Requests

/-- Claims are answered with the least name that is free, which a search finds whose counter does
not overflow, and nothing else is taken with it. So in any sequence of requests the claimed names
are distinct, no name is claimed that was reserved before, and the scope contains just the names
that were reserved or claimed. -/
theorem claimed_and_history (s : Scope) (base : String) (requests : List Request) :
    Claimed s base (s.claim base).1 (s.claim base).2 ∧
      History requests (empty.answerAll requests).1 (empty.answerAll requests).2 :=
  ⟨claimed_claim s base, history_answerAll requests⟩

/-- A name that looks like a numbered one is passed over when its turn comes. -/
example : (empty.answerAll [.reserve "foo1", .claim "foo0", .claim "foo", .claim "foo"]).1 =
    [.reserved "foo1", .claimed "foo0", .claimed "foo", .claimed "foo2"] := by
  decide

end SchemaBindings.Naming.Scope
