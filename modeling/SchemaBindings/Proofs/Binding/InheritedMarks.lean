import SchemaBindings.Proofs.Catalog.Ownership

/-! One pass over the declarations marks all that a type hint replaces. At each declaration the pass
looks no further than the mark of the owner. This is enough since owners come first: their marks are
made by then, and they are made for good. -/

namespace SchemaBindings.Binding

open Catalog (Linked OwnersFirst Suppressed)
open Relation (ReflTransGen)

variable {key : String} {catalog : Catalog}

/-- The declaration `id` is nested in the declaration `owner`, with none between them. -/
def OwnedBy (catalog : Catalog) (id owner : Nat) : Prop :=
  ∃ d, catalog.declaration? id = some d ∧ d.owner = some owner

/-- What the pass promises for each key. -/
structure Inherits (key : String) (catalog : Catalog) : Prop where
  count : (replaced key catalog).length = catalog.size
  /-- The mark of an owner is there when the pass comes to what it owns, and is not changed later. -/
  settled : ∀ d ∈ catalog.declarations, ∀ owner, d.owner = some owner →
    owner < d.id ∧ ∃ mark,
      (markReplaced key [] (catalog.declarations.take d.id))[owner]? = some mark ∧
      (replaced key catalog)[owner]? = some mark ∧
      (replaced key catalog)[d.id]? = some ((d.metadata.hint? key).isSome || mark)
  /-- A mark is on the declarations that carry the key or have an outer one that does. -/
  marks : ∀ id, (replaced key catalog)[id]? = some true ↔
    ∃ outer d, ReflTransGen (OwnedBy catalog) id outer ∧
      catalog.declaration? outer = some d ∧ (d.metadata.hint? key).isSome

/-- No mark depends on a declaration that comes later. -/
theorem markReplaced_take (key : String) (ds : List Declaration) {count : Nat}
    (bound : count ≤ ds.length) :
    markReplaced key [] (ds.take count) = (markReplaced key [] ds).take count := by
  obtain ⟨marks, soFar, length⟩ := Catalog.markReplaced_eq_append key [] (ds.take count)
  obtain ⟨more, whole, -⟩ := Catalog.markReplaced_eq_append key marks (ds.drop count)
  rw [List.nil_append] at soFar
  rw [List.length_take, Nat.min_eq_left bound] at length
  have all : markReplaced key [] ds = marks ++ more := by
    rw [← whole, ← soFar, ← Catalog.markReplaced_append, List.take_append_drop]
  rw [soFar, all, List.take_left' length]

/-- What is suppressed has the hint on itself or at the end of some way from owner to owner. -/
theorem suppressed_iff {id : Nat} :
    Suppressed key catalog id ↔ ∃ outer d, ReflTransGen (OwnedBy catalog) id outer ∧
      catalog.declaration? outer = some d ∧ (d.metadata.hint? key).isSome := by
  constructor
  · intro suppressed
    induction suppressed with
    | hinted declared hint => exact ⟨_, _, .refl, declared, hint⟩
    | nested declared owned _ ih =>
      obtain ⟨outer, e, chain, hinted⟩ := ih
      exact ⟨outer, e, .head ⟨_, declared, owned⟩ chain, hinted⟩
  · rintro ⟨outer, e, chain, declared, hint⟩
    induction chain using ReflTransGen.head_induction_on with
    | refl => exact .hinted declared hint
    | head step _ ih =>
      obtain ⟨d, found, owned⟩ := step
      exact .nested found owned ih

theorem inherits_of_ordered (key : String) (linked : Linked catalog)
    (ordered : OwnersFirst catalog) : Inherits key catalog := by
  constructor
  case count => exact Catalog.length_replaced catalog
  case settled =>
    intro d inside owner owned
    have found := linked.declaration?_id inside
    have later := ordered d inside owner owned
    have bound : d.id ≤ catalog.declarations.length :=
      Nat.le_of_lt (Catalog.lt_size_of_declaration? found)
    obtain ⟨mark, above, own⟩ : ∃ mark, (replaced key catalog)[owner]? = some mark ∧
        (replaced key catalog)[d.id]? = some ((d.metadata.hint? key).isSome || mark) :=
      Catalog.mark_of_owner found owned later
    refine ⟨later, mark, ?_, above, own⟩
    rw [markReplaced_take key catalog.declarations bound, List.getElem?_take_of_lt later]
    exact above
  case marks =>
    intro id
    rw [Catalog.mark_eq_true_iff linked ordered, suppressed_iff]

/-- If an owner came later, its hint would not reach what is nested in it. -/
example :
    let hinted : Metadata := ⟨none, [], [("rustType", .string "Text")]⟩
    let nested (id owner : Nat) : Declaration :=
      ⟨id, [], .enumeration [], .empty, false, some owner, .root⟩
    let root : Declaration := ⟨0, ["root"], .enumeration [], hinted, false, none, .root⟩
    replaced "rustType" ⟨[root, nested 1 2, nested 2 0], []⟩ = [true, false, true] ∧
      replaced "rustType" ⟨[root, nested 1 0, nested 2 1], []⟩ = [true, true, true] := by
  decide

theorem inherits_ofSchema (schema : Schema) (rootName key : String) :
    Inherits key (Catalog.ofSchema schema rootName) :=
  inherits_of_ordered key (Catalog.linked_ofSchema schema rootName)
    (Catalog.ownersFirst_ofSchema schema rootName)

end SchemaBindings.Binding
