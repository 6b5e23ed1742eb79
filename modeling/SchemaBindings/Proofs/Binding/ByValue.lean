import SchemaBindings.Proofs.Binding.Cycles
import SchemaBindings.Proofs.Binding.Drafts

/-! The edges that are left when every holding that would close a cycle goes through an indirection.
Only unions hold their variants whatever it costs, and no variant is a union. -/

namespace SchemaBindings.Binding

open Relation (TransGen)
open Naming (Convention Distinct)

/-- The first declaration holds the second, and needs no indirection to it or has none. -/
def KeptEdge (catalog : Catalog) (v w : Nat) : Prop :=
  ∃ shape, catalog.shape? v = some shape ∧ w ∈ held shape ∧
    (¬ shape.IsUnion → closesCycle (holdings catalog) v w = false)

theorem holds_of_mem_held {catalog : Catalog} {v w : Nat} {shape : Shape}
    (found : catalog.shape? v = some shape) (member : w ∈ held shape) :
    Holds (holdings catalog) v w := by
  obtain ⟨d, declared, rfl⟩ := Option.map_eq_some_iff.1 found
  have known : catalog.declarations[v]? = some d := declared
  exact ⟨held d.shape, by rw [holdings, List.getElem?_map, known, Option.map_some], member⟩

theorem innermost?_of_direct? {use : TypeUse} {id : Nat} (direct : direct? use = some id) :
    use.innermost? = some id := by
  obtain ⟨kind, _, _, _⟩ := use
  cases kind with
  | declared target => exact direct
  | _ => cases direct

/-- Apart from unions, a shape holds what its uses name outside of lists and maps. -/
theorem held_eq_filterMap_uses {shape : Shape} (other : ¬ shape.IsUnion) :
    held shape = shape.uses.filterMap direct? := by
  cases shape with
  | union tag variants => exact (other ⟨tag, variants, rfl⟩).elim
  | record members additional =>
    simp [held, Shape.uses, List.filterMap_map]
  | variant parent tagValue members additional =>
    simp [held, Shape.uses, List.filterMap_map]
  | wrapper inner => cases direct : direct? inner <;> simp [held, Shape.uses, direct]
  | enumeration values => rfl

section Linked

variable {catalog : Catalog} (linked : catalog.Linked)
include linked

theorem lt_size_of_held {v w : Nat} {shape : Shape} (found : catalog.shape? v = some shape)
    (member : w ∈ held shape) : w < catalog.size := by
  obtain ⟨d, declared, rfl⟩ := Option.map_eq_some_iff.1 found
  have inside : d ∈ catalog.declarations := List.mem_of_getElem? declared
  by_cases union : d.shape.IsUnion
  · obtain ⟨tag, variants, shape⟩ := union
    rw [shape] at member
    obtain ⟨_, known, -⟩ := linked.variants d inside tag variants shape w member
    obtain ⟨_, declared, -⟩ := Option.map_eq_some_iff.1 known
    exact (List.getElem?_eq_some_iff.1 declared).1
  · rw [held_eq_filterMap_uses union] at member
    obtain ⟨use, used, direct⟩ := List.mem_filterMap.1 member
    exact linked.uses d inside use used w (innermost?_of_direct? direct)

/-- What is left of the holdings has no cycle. -/
theorem acyclic_keptEdge (v : Nat) : ¬ TransGen (KeptEdge catalog) v v := by
  apply acyclic_of_not_closesCycle (holdings catalog)
    (fun v => ∃ shape, catalog.shape? v = some shape ∧ shape.IsUnion)
  · rintro v w ⟨shape, found, member, -⟩
    exact holds_of_mem_held found member
  · rintro v w ⟨shape, found, member, -⟩ ⟨_, same, tag, variants, rfl⟩ ⟨_, other, union⟩
    cases found.symm.trans same
    obtain ⟨d, declared, union'⟩ := Option.map_eq_some_iff.1 found
    obtain ⟨_, known, tagValue, members, additional, rfl⟩ :=
      linked.variants d (List.mem_of_getElem? declared) tag variants union' w member
    cases other.symm.trans known
    obtain ⟨_, _, impossible⟩ := union
    cases impossible
  · rintro v w ⟨shape, found, -, clear⟩ other
    exact clear fun union => other ⟨shape, found, union⟩

end Linked

/-- The declaration of a type, found by the name. -/
def idOf (c : NamedCatalog) (name : String) : Nat := (c.names.map Naming.Names.type).idxOf name

section Named

variable {ε μ : Type} {rules : Rules ε μ} {convention : Convention} {c : NamedCatalog}
  {drafts : List (Draft ε μ)}

theorem typeName_eq {id : Nat} {names : Naming.Names} (named : c.names[id]? = some names) :
    c.typeName id = names.type := by
  simp [NamedCatalog.typeName, named]

theorem idOf_typeName (distinct : Distinct convention c.catalog c.names) {id : Nat}
    (bound : id < c.catalog.size) : idOf c (c.typeName id) = id := by
  have inside : id < c.names.length := distinct.count ▸ bound
  rw [idOf, typeName_eq (List.getElem?_eq_getElem inside),
    ← List.getElem_map Naming.Names.type (h := by simpa using inside), distinct.types.idxOf_getElem]

theorem exists_type_of_mem_drafts {d : Draft ε μ} (read : rules.drafts c = .ok drafts)
    (member : d ∈ drafts) : ∃ names ∈ c.names, d.name = names.type := by
  obtain ⟨id, declaration, names, -, named, drafted⟩ := exists_of_mem_drafts read member
  exact ⟨names, List.mem_of_getElem? named, (draft_eq_ok drafted).2.1⟩

variable (linked : c.catalog.Linked) (distinct : Distinct convention c.catalog c.names)
include linked distinct

theorem drafted_by_name {d : Draft ε μ} (read : rules.drafts c = .ok drafts) (member : d ∈ drafts) :
    idOf c d.name = d.id ∧ ∃ shape names, c.catalog.shape? d.id = some shape ∧
      rules.body c names shape = .ok d.body := by
  obtain ⟨id, declaration, names, declared, named, drafted⟩ := exists_of_mem_drafts read member
  obtain ⟨own, name, bodyRead⟩ := draft_eq_ok drafted
  have bound : id < c.catalog.size := (List.getElem?_eq_some_iff.1 declared).1
  obtain rfl : declaration.id = id := linked.ids id declaration declared
  rw [name, own, ← typeName_eq named]
  exact ⟨idOf_typeName distinct bound, declaration.shape, names,
    Option.map_eq_some_iff.2 ⟨declaration, declared, rfl⟩, bodyRead⟩

/-- A name that stands as a type without an indirection is an edge that is left. -/
theorem keptEdge_of_mem_types {d : Draft ε μ} (read : rules.drafts c = .ok drafts)
    (member : d ∈ drafts) {id : Nat} {name : String} {nullable : Bool}
    (type : .declared id (.name name) nullable ∈ d.body.types)
    (clear : closesCycle (holdings c.catalog) d.id id = false) :
    KeptEdge c.catalog (idOf c d.name) (idOf c name) := by
  obtain ⟨own, shape, names, found, bodyRead⟩ := drafted_by_name linked distinct read member
  obtain ⟨holds, known⟩ := held_of_mem_types bodyRead type
  rw [own, name_of_reference known, idOf_typeName distinct (lt_size_of_held linked found holds)]
  exact ⟨shape, found, holds, fun _ => clear⟩

theorem keptEdge_of_mem_references {d : Draft ε μ} (read : rules.drafts c = .ok drafts)
    (member : d ∈ drafts) {name : String} (reference : .name name ∈ d.body.references) :
    KeptEdge c.catalog (idOf c d.name) (idOf c name) := by
  obtain ⟨own, shape, names, found, bodyRead⟩ := drafted_by_name linked distinct read member
  obtain ⟨tag, variants, rfl, v, holds, known⟩ := variant_of_mem_references bodyRead reference
  rw [own, name_of_reference known, idOf_typeName distinct (lt_size_of_held linked found holds)]
  exact ⟨_, found, holds, fun other => (other ⟨tag, variants, rfl⟩).elim⟩

end Named

/-- The first of two written items mentions the second by value. -/
def Mentions {ι : Type} (name : ι → String) (byValue : ι → List String) (items : List ι)
    (i j : ι) : Prop :=
  i ∈ items ∧ j ∈ items ∧ name j ∈ byValue i

/-- What may be written by value for a draft: words of the language, declarations that close no
cycle, and the variants of a union. -/
def MayWrite {ε μ : Type} (ownWords : List String) (edges : List (List Nat)) (d : Draft ε μ)
    (text : String) : Prop :=
  text ∈ ownWords ∨
    (∃ id nullable, .declared id (.name text) nullable ∈ d.body.types ∧
      closesCycle edges d.id id = false) ∨
    .name text ∈ d.body.references

/-- Where each item is written from a draft and nothing else is written by value, no item is part of
itself. -/
theorem acyclic_mentions_of_mayWrite {ε μ ι : Type} {rules : Rules ε μ} {convention : Convention}
    {c : NamedCatalog} (linked : c.catalog.Linked)
    (distinct : Distinct convention c.catalog c.names) {drafts : List (Draft ε μ)}
    (read : rules.drafts c = .ok drafts) {ownWords : List String}
    (foreign : ∀ n ∈ c.names, n.type ∉ ownWords) (item : Draft ε μ → ι) (name : ι → String)
    (byValue : ι → List String) (named : ∀ d, name (item d) = d.name)
    (written : ∀ d, ∀ text ∈ byValue (item d), MayWrite ownWords (holdings c.catalog) d text)
    (i : ι) : ¬ TransGen (Mentions name byValue (drafts.map item)) i i := by
  have kept (i j : ι) (mentions : Mentions name byValue (drafts.map item) i j) :
      KeptEdge c.catalog (idOf c (name i)) (idOf c (name j)) := by
    obtain ⟨first, second, mentioned⟩ := mentions
    obtain ⟨d, drafted, rfl⟩ := List.mem_map.1 first
    obtain ⟨e, other, rfl⟩ := List.mem_map.1 second
    rw [named] at mentioned ⊢
    rw [named]
    rcases written d e.name mentioned with own | ⟨id, nullable, type, free⟩ | reference
    · obtain ⟨n, inside, type⟩ := exists_type_of_mem_drafts read other
      exact (foreign n inside (type ▸ own)).elim
    · exact keptEdge_of_mem_types linked distinct read drafted type free
    · exact keptEdge_of_mem_references linked distinct read drafted reference
  intro cycle
  exact acyclic_keptEdge linked _ (cycle.lift (fun i => idOf c (name i)) kept)

end SchemaBindings.Binding
