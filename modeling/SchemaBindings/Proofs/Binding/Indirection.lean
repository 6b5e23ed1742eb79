import SchemaBindings.Proofs.Binding.ByValue

/-! What needs an indirection. For each declaration a search marks what it holds by value, directly or
through others. In whatever order vertices are taken off its stack, it looks up declarations only,
takes at most one turn for each edge and one more for those it begins with, and marks just what it
should. So a declaration needs an indirection to another just when that is itself, or leads back to it. -/

namespace SchemaBindings.Binding

open Relation (TransGen)

/-- The first declaration holds the second by value: as the type of a member, as what it gives a name
to, or as a variant. What stands inside a list or a map is not held by value. -/
inductive HoldsByValue (catalog : Catalog) (v w : Nat) : Prop
  | member {shape : Shape} {m : Member} (found : catalog.shape? v = some shape)
      (listed : m ∈ shape.members) (direct : m.type.kind = .declared w)
  | wrapped {inner : TypeUse} (found : catalog.shape? v = some (.wrapper inner))
      (direct : inner.kind = .declared w)
  | variant {tag : String} {variants : List Nat}
      (found : catalog.shape? v = some (.union tag variants)) (listed : w ∈ variants)

section Edges

variable {catalog : Catalog} {v w : Nat}

theorem direct?_eq_some_iff {use : TypeUse} {id : Nat} :
    direct? use = some id ↔ use.kind = .declared id := by
  unfold direct?
  cases use.kind <;> simp

theorem mem_held_of_member {shape : Shape} {m : Member} (listed : m ∈ shape.members)
    (direct : m.type.kind = .declared w) : w ∈ held shape := by
  have found := direct?_eq_some_iff.2 direct
  cases shape with
  | record => exact List.mem_filterMap.2 ⟨m, listed, found⟩
  | variant => exact List.mem_filterMap.2 ⟨m, listed, found⟩
  | _ => cases listed

/-- The edges that are searched are these holdings. -/
theorem holds_holdings_iff : Holds (holdings catalog) v w ↔ HoldsByValue catalog v w := by
  constructor
  · rintro ⟨targets, known, inside⟩
    unfold holdings at known
    rw [List.getElem?_map, Option.map_eq_some_iff] at known
    obtain ⟨d, declared, rfl⟩ := known
    have found : catalog.shape? v = some d.shape := Option.map_eq_some_iff.2 ⟨d, declared, rfl⟩
    cases shape : d.shape with
    | record members additional =>
      rw [shape] at found inside
      obtain ⟨m, listed, direct⟩ := List.mem_filterMap.1 inside
      exact .member found listed (direct?_eq_some_iff.1 direct)
    | variant parent tagValue members additional =>
      rw [shape] at found inside
      obtain ⟨m, listed, direct⟩ := List.mem_filterMap.1 inside
      exact .member found listed (direct?_eq_some_iff.1 direct)
    | union tag variants =>
      rw [shape] at found inside
      exact .variant found inside
    | wrapper inner =>
      rw [shape] at found inside
      exact .wrapped found (direct?_eq_some_iff.1 (Option.mem_toList.1 inside))
    | enumeration values =>
      rw [shape] at inside
      cases inside
  · intro holds
    cases holds with
    | member found listed direct => exact holds_of_mem_held found (mem_held_of_member listed direct)
    | wrapped found direct =>
      apply holds_of_mem_held found
      exact Option.mem_toList.2 (direct?_eq_some_iff.2 direct)
    | variant found listed => exact holds_of_mem_held found listed

theorem holds_holdings_eq (catalog : Catalog) :
    Holds (holdings catalog) = HoldsByValue catalog := by
  funext v w
  exact propext holds_holdings_iff

theorem length_holdings (catalog : Catalog) : (holdings catalog).length = catalog.size :=
  List.length_map _

/-- What edges lead to is a declaration. -/
theorem lt_size_of_reached (linked : catalog.Linked) (path : TransGen (Holds (holdings catalog)) v w) :
    w < catalog.size := by
  obtain ⟨u, -, holds⟩ := TransGen.tail'_iff.1 path
  obtain ⟨targets, known, inside⟩ := holds
  unfold holdings at known
  rw [List.getElem?_map, Option.map_eq_some_iff] at known
  obtain ⟨d, declared, rfl⟩ := known
  exact lt_size_of_held linked (Option.map_eq_some_iff.2 ⟨d, declared, rfl⟩) inside

end Edges

/-- How a search from a declaration goes, whichever vertices it takes off its stack. -/
structure Searches (catalog : Catalog) (v : Nat) : Prop where
  bounded : ∀ n s, Turns (holdings catalog) n (.start (holdings catalog) v) s →
    n + s.stack.length ≤ ((holdings catalog)[v]?.getD []).length + edgeCount (holdings catalog)
  /-- No vertex is looked up that has no entry. -/
  declared : ∀ n s, Turns (holdings catalog) n (.start (holdings catalog) v) s →
    ∀ w, s.Covers w → w < catalog.size
  advances : ∀ n s, Turns (holdings catalog) n (.start (holdings catalog) v) s → s.stack ≠ [] →
    ∃ t, Turn (holdings catalog) s t
  exact : ∀ n s, Turns (holdings catalog) n (.start (holdings catalog) v) s → s.stack = [] →
    ∀ w, w ∈ s.seen ↔ TransGen (HoldsByValue catalog) v w
  performed : ∃ n, Turns (holdings catalog) n (.start (holdings catalog) v)
    ⟨search (holdings catalog) [] ((holdings catalog)[v]?.getD []), []⟩

theorem searches_of_linked {catalog : Catalog} (linked : catalog.Linked) (v : Nat) :
    Searches catalog v := by
  have keeps {n : Nat} {s : Search}
      (turns : Turns (holdings catalog) n (.start (holdings catalog) v) s) :
      Searching (holdings catalog) v s := turns.keeps (searching_start _ v)
  constructor
  case bounded =>
    intro n s turns
    have cost := turns.cost_eq
    have total := owed_nil (holdings catalog)
    unfold Search.cost Search.start at cost
    dsimp only at cost
    omega
  case declared =>
    intro n s turns w covered
    exact lt_size_of_reached linked ((keeps turns).sound w covered)
  case advances =>
    intro n s _ some'
    exact exists_turn some'
  case exact =>
    intro n s turns done w
    rw [← holds_holdings_eq]
    constructor
    · intro marked
      exact (keeps turns).sound w (.inl marked)
    · intro path
      have bound : w < (holdings catalog).length := by
        rw [length_holdings]
        exact lt_size_of_reached linked path
      exact ((keeps turns).mem_seen_iff done bound).2 path
  case performed => exact exists_turns_search [] _

/-- In every catalog that is made from a schema the searches come to an end with what is held by value,
and a declaration needs an indirection to those, and only those, that are itself or lead back to it. -/
theorem closesCycle_ofSchema (schema : Schema) (rootName : String) :
    (∀ v, Searches (Catalog.ofSchema schema rootName) v) ∧
    ∀ holder held, closesCycle (holdings (Catalog.ofSchema schema rootName)) holder held = true ↔
      holder = held ∨ TransGen (HoldsByValue (Catalog.ofSchema schema rootName)) held holder := by
  have searches (v : Nat) : Searches (Catalog.ofSchema schema rootName) v :=
    searches_of_linked (Catalog.linked_ofSchema schema rootName) v
  refine ⟨searches, fun holder held => ?_⟩
  obtain ⟨n, turns⟩ := (searches held).performed
  unfold closesCycle
  rw [Bool.or_eq_true, beq_iff_eq, List.contains_iff_mem]
  exact or_congr_right ((searches held).exact n _ turns rfl holder)

end SchemaBindings.Binding
