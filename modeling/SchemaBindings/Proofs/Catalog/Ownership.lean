import SchemaBindings.Proofs.Catalog.Consistent
import SchemaBindings.Proofs.Catalog.PreOrder

/-! Who can refer to a nested declaration. A use that comes down to one stands in the declaration it
is nested in, and a variant is known to its union alone; so what a type hint suppresses, with all
that is nested in it, is out of reach for every declaration that is left. -/

namespace SchemaBindings.Catalog

open Binding (replaced)
open Schema (Regular)

variable {schema : Schema} {rootName : String} {catalog : Catalog}

section Holders

/-- Steps to items lead from the one place to the other, if they are not the same. -/
inductive ItemOf (place : Place) : Place → Prop
  | here : ItemOf place place
  | element {p : Place} {item : Node} (within : ItemOf place p)
      (form : p.node.form = .elements item) : ItemOf place (p.down .element item)
  | value {p : Place} {item : Node} (within : ItemOf place p) (form : p.node.form = .values item) :
      ItemOf place (p.down .value item)

theorem ItemOf.trans {a b c : Place} (first : ItemOf a b) (second : ItemOf b c) : ItemOf a c := by
  induction second with
  | here => exact first
  | element _ form ih => exact ih.element form
  | value _ form ih => exact ih.value form

theorem ItemOf.located {a b : Place} (item : ItemOf a b) (located : Located schema rootName a) :
    Located schema rootName b := by
  induction item with
  | here => exact located
  | element _ form ih => exact .down ih (.element form)
  | value _ form ih => exact .down ih (.value form)

/-- The place is that of a member of a declaration, or of what the declaration wraps. -/
inductive HeadOf (place : Place) : Place → Prop
  | member {name : String} {required : Bool} {node : Node}
      (leads : HasStep place.node (.property name required) node) :
      HeadOf place (place.down (.property name required) node)
  | wrapped (top : place.step = none) : HeadOf place place

theorem HeadOf.located {place p : Place} (head : HeadOf place p)
    (located : Located schema rootName place) : Located schema rootName p := by
  cases head with
  | member leads => exact .down located leads
  | wrapped => exact located

theorem HeadOf.step {place p : Place} (head : HeadOf place p) :
    p.step = none ∨ ∃ name required, p.step = some (.property name required) := by
  cases head with
  | member => exact .inr ⟨_, _, rfl⟩
  | wrapped top => exact .inl top

theorem exists_segments {place : Place} (located : Located schema rootName place) :
    ∃ segments, place.pointer = Pointer.root.descend segments := by
  induction located with
  | root => exact ⟨[], rfl⟩
  | definition => exact ⟨_, rfl⟩
  | @down p step node _ _ ih =>
    obtain ⟨segments, same⟩ := ih
    exact ⟨segments ++ step.segments, by rw [Place.down, same, descend_descend]⟩

/-- A place below another tells where it comes from. -/
theorem eq_of_down_eq (regular : Regular schema) {p q : Place} {step step' : Step}
    {node node' : Node} (located : Located schema rootName p)
    (other : Located schema rootName q) (same : p.down step node = q.down step' node') : p = q := by
  obtain ⟨rfl⟩ : step = step' := Option.some.inj (congrArg Place.step same)
  obtain ⟨xs, here⟩ := exists_segments located
  obtain ⟨ys, there⟩ := exists_segments other
  have pointers : p.pointer.descend step.segments = q.pointer.descend step.segments :=
    congrArg Place.pointer same
  rw [here, there, descend_descend, descend_descend, Pointer.descend_root_inj,
    List.append_cancel_right_eq] at pointers
  exact place_eq_of_pointer_eq regular located other (by rw [here, there, pointers])

theorem HeadOf.unique (regular : Regular schema) {a b p : Place} (first : HeadOf a p)
    (second : HeadOf b p) (located : Located schema rootName a)
    (other : Located schema rootName b) : a = b := by
  cases first with
  | @member name required node leads =>
    generalize same : a.down (.property name required) node = q at second
    cases second with
    | member => exact eq_of_down_eq regular located other same
    | wrapped top =>
      rw [← same] at top
      cases top
  | wrapped top =>
    cases second with
    | member => cases top
    | wrapped => rfl

/-- The items on the way to a place start at one place only that is no item itself. -/
theorem ItemOf.unique (regular : Regular schema) {a b p q : Place} {place place' : Place}
    (first : ItemOf p q) (second : ItemOf a b) (same : q = b) (head : HeadOf place p)
    (other : HeadOf place' a) (located : Located schema rootName p)
    (located' : Located schema rootName a) : p = a := by
  have noItem {r s : Place} (head : HeadOf r s) {step : Step} {t : Place} {item : Node}
      (plain : step = .element ∨ step = .value) : s ≠ t.down step item := by
    rintro rfl
    rcases head.step with top | ⟨name, required, own⟩
    · cases top
    · rcases plain with rfl | rfl <;> cases own
  induction first generalizing b with
  | here =>
    cases second with
    | here => exact same
    | element => exact (noItem head (.inl rfl) same).elim
    | value => exact (noItem head (.inr rfl) same).elim
  | element within form ih =>
    cases second with
    | here => exact (noItem other (.inl rfl) same.symm).elim
    | element within' form' =>
      exact ih within' (eq_of_down_eq regular (within.located located) (within'.located located')
        same)
    | value => cases congrArg Place.step same
  | value within form ih =>
    cases second with
    | here => exact (noItem other (.inr rfl) same.symm).elim
    | element => cases congrArg Place.step same
    | value within' form' =>
      exact ih within' (eq_of_down_eq regular (within.located located) (within'.located located')
        same)

end Holders

section Uses

variable {all : List Place} {first : Nat}

/-- A use comes down to the root, to a definition, or to what is declared at one of its items. -/
theorem Means.reaches {place : Place} {use : TypeUse} (means : Means schema all first place use)
    {id : Nat} (inner : use.innermost? = some id) :
    id ≤ schema.definitions.length ∨ ∃ q, ItemOf place q ∧ all[id]? = some q := by
  induction means with
  | anything => cases inner
  | primitive => cases inner
  | reference _ found =>
    cases inner
    exact .inl (definitionId?_le found)
  | elements form _ ih =>
    rcases ih inner with top | ⟨q, item, numbered⟩
    · exact .inl top
    · exact .inr ⟨q, (ItemOf.here.element form).trans item, numbered⟩
  | values form _ ih =>
    rcases ih inner with top | ⟨q, item, numbered⟩
    · exact .inl top
    · exact .inr ⟨q, (ItemOf.here.value form).trans item, numbered⟩
  | declared _ _ numbered =>
    cases inner
    exact .inr ⟨_, .here, numbered⟩

theorem ShapeFor.head_of_mem_uses {id : Nat} {place : Place} {shape : Shape}
    (shaped : ShapeFor schema all id place shape) {use : TypeUse} (used : use ∈ shape.uses) :
    ∃ p, HeadOf place p ∧ Means schema all (id + 1) p use := by
  cases shaped with
  | enumeration => cases used
  | union => cases used
  | record form all_members =>
    obtain ⟨m, member, rfl⟩ := List.mem_map.1 used
    obtain ⟨i, found⟩ := List.mem_iff_getElem?.1 member
    obtain ⟨p, listed, memberFor⟩ := getElem?_of_forall₂ all_members.flip found
    have leads : HasStep place.node (.property p.name p.required) p.node := by
      rw [← mem_stepsOf, form]
      exact List.mem_map_of_mem (List.mem_of_getElem? listed)
    exact ⟨_, .member leads, memberFor.type⟩

theorem Shaped.head_of_mem_uses {id : Nat} {place : Place} {shape : Shape}
    (shaped : Shaped schema all id place shape) {use : TypeUse} (used : use ∈ shape.uses) :
    ∃ p, HeadOf place p ∧ Means schema all (id + 1) p use := by
  cases shaped with
  | own _ shaped => exact shaped.head_of_mem_uses used
  | variant _ shaped => exact shaped.head_of_mem_uses used
  | wrapper top plain means =>
    obtain rfl := List.mem_singleton.1 used
    exact ⟨place, .wrapped top, means⟩

end Uses

theorem getElem?_inj_of_nodup {α : Type} {xs : List α} (distinct : xs.Nodup) {i j : Nat} {a : α}
    (first : xs[i]? = some a) (second : xs[j]? = some a) : i = j := by
  obtain ⟨bound, -⟩ := List.getElem?_eq_some_iff.1 first
  exact (List.getElem?_inj bound distinct).1 (first.trans second.symm)

/-- A use that comes down to a nested declaration stands in the declaration that owns it. -/
theorem Mirrors.owner_of_mem_uses (mirrors : Mirrors schema rootName catalog)
    (regular : Regular schema) (linked : Linked catalog) {d : Declaration}
    (inside : d ∈ catalog.declarations) {use : TypeUse} (used : use ∈ d.shape.uses) {e : Declaration}
    (declared : e ∈ catalog.declarations) (inner : use.innermost? = some e.id)
    (below : e.owner ≠ none) : e.owner = some d.id := by
  have distinct : (declaredPlaces schema rootName).Nodup :=
    (nodup_pointer_declaredPlaces regular rootName).of_map
  obtain ⟨target, numbered, describes⟩ := mirrors.place_of_mem linked declared
  -- From a declaration that has such a use, member and items lead to the place of `e`.
  have reaches {h : Declaration} (inside : h ∈ catalog.declarations) {use : TypeUse}
      (used : use ∈ h.shape.uses) (inner : use.innermost? = some e.id) :
      ∃ place p, (declaredPlaces schema rootName)[h.id]? = some place ∧ HeadOf place p ∧
        ItemOf p target := by
    obtain ⟨place, found, describes⟩ := mirrors.place_of_mem linked inside
    obtain ⟨p, head, means⟩ := describes.shape.head_of_mem_uses used
    rcases means.reaches inner with top | ⟨q, item, known⟩
    · exact (below ((mirrors.top e declared).2 top)).elim
    · obtain rfl := Option.some.inj (known.symm.trans numbered)
      exact ⟨place, p, found, head, item⟩
  have sameHolder {h : Declaration} (inside' : h ∈ catalog.declarations) {use' : TypeUse}
      (used' : use' ∈ h.shape.uses) (inner' : use'.innermost? = some e.id) : h.id = d.id := by
    obtain ⟨place, p, found, head, item⟩ := reaches inside used inner
    obtain ⟨place', p', found', head', item'⟩ := reaches inside' used' inner'
    have located := located_of_getElem? found
    have located' := located_of_getElem? found'
    obtain rfl := ItemOf.unique regular item item' rfl head head' (head.located located)
      (head'.located located')
    obtain rfl := head.unique regular head' located located'
    exact getElem?_inj_of_nodup distinct found' found
  obtain ⟨owner, member, nested⟩ := mirrors.nested e declared below
  rw [nested.owned]
  refine congrArg some ?_
  cases nested.hangs with
  | member listed use' _ _ => exact sameHolder member (Shape.type_mem_uses listed) use'
  | item wrapper use' _ _ => exact sameHolder member (wrapper ▸ List.mem_cons_self) use'
  | variant union listed parent _ =>
    obtain ⟨tagValue, step⟩ := describes.shape.step_of_variant ⟨_, _, _, parent⟩
    obtain ⟨place, p, found, head, item⟩ := reaches inside used inner
    cases item with
    | here => rcases head.step with top | ⟨_, _, own⟩ <;> simp_all
    | element => cases step
    | value => cases step

/-- A type hint stands on the declaration, or on one that it is nested in. -/
inductive Suppressed (key : String) (catalog : Catalog) : Nat → Prop
  | hinted {id : Nat} {d : Declaration} (declared : catalog.declaration? id = some d)
      (hint : (d.metadata.hint? key).isSome) : Suppressed key catalog id
  | nested {id owner : Nat} {d : Declaration} (declared : catalog.declaration? id = some d)
      (owned : d.owner = some owner) (outer : Suppressed key catalog owner) :
      Suppressed key catalog id

section Suppression

variable {key : String}

/-- The marks are on what is suppressed. -/
theorem mark_eq_true_iff (linked : Linked catalog) (ordered : OwnersFirst catalog) {id : Nat} :
    (replaced key catalog)[id]? = some true ↔ Suppressed key catalog id := by
  have markOf {id : Nat} {d : Declaration} (declared : catalog.declaration? id = some d) :
      (∀ owner, d.owner = some owner → owner < id) ∧
        (replaced key catalog)[id]? = some ((d.metadata.hint? key).isSome ||
          (d.owner.bind fun owner => (replaced key catalog)[owner]?).getD false) := by
    obtain rfl := linked.ids id d declared
    have later := ordered d (List.mem_of_getElem? declared)
    exact ⟨later, mark_of_declaration declared later⟩
  constructor
  · -- The owner has a lesser number.
    intro marked
    induction id using Nat.strongRecOn with
    | ind id ih =>
      have bound := (List.getElem?_eq_some_iff.1 marked).1
      rw [length_replaced] at bound
      obtain ⟨d, declared⟩ : ∃ d, catalog.declaration? id = some d :=
        ⟨_, List.getElem?_eq_getElem bound⟩
      obtain ⟨later, mark⟩ := markOf declared
      rw [mark, Option.some.injEq, Bool.or_eq_true] at marked
      rcases marked with hint | above
      · exact .hinted declared hint
      · cases owned : d.owner with
        | none => simp [owned] at above
        | some owner =>
          have outer : (replaced key catalog)[owner]? = some true := by
            rw [owned, Option.bind_some] at above
            cases own : (replaced key catalog)[owner]? with
            | none => simp [own] at above
            | some mark => simpa [own] using above
          exact .nested declared owned (ih owner (later owner owned) outer)
  · intro suppressed
    induction suppressed with
    | hinted declared hint => rw [(markOf declared).2, hint, Bool.true_or]
    | nested declared owned _ ih =>
      rw [(markOf declared).2, owned, Option.bind_some, ih, Option.getD_some, Bool.or_true]

/-- What a declaration that is left refers to is left too, unless a hint stands on it. -/
theorem not_suppressed_of_mem_numbers (mirrors : Mirrors schema rootName catalog)
    (regular : Regular schema) (linked : Linked catalog)
    (consistent : Consistent schema rootName catalog) {d : Declaration}
    (inside : d ∈ catalog.declarations) (left : ¬ Suppressed key catalog d.id) {id : Nat}
    (member : id ∈ d.shape.numbers) {e : Declaration} (declared : catalog.declaration? id = some e)
    (plain : e.metadata.hint? key = none) : ¬ Suppressed key catalog id := by
  intro suppressed
  cases suppressed with
  | hinted same hint =>
    cases declared.symm.trans same
    simp [plain] at hint
  | @nested _ owner _ same owned outer =>
    cases declared.symm.trans same
    have listed := List.mem_of_getElem? declared
    obtain rfl := linked.ids id e declared
    suffices reached : e.owner = some d.id ∨ d.owner = some e.id by
      rcases reached with below | above
      · cases owned.symm.trans below
        exact left outer
      · exact left (.nested (linked.declaration?_id inside) above
          (.nested declared owned outer))
    rcases List.mem_append.1 member with member | member
    · obtain ⟨use, used, number⟩ := List.mem_flatMap.1 member
      exact .inl (mirrors.owner_of_mem_uses regular linked inside used listed
        (mem_numbers_iff.1 number) (by simp [owned]))
    · cases shape : d.shape with
      | union tag variants =>
        have known : e.id ∈ variants := by simpa [shape] using member
        obtain ⟨v, found, variant⟩ := ((consistent.unions d inside tag variants shape).1 e.id).1 known
        cases declared.symm.trans found
        exact .inl (consistent.variants e listed d.id variant).1
      | variant parent tagValue members additional =>
        obtain rfl : e.id = parent := by simpa [shape] using member
        exact .inr (consistent.variants d inside e.id ⟨_, _, _, shape⟩).1
      | _ => simp [shape] at member

end Suppression

end SchemaBindings.Catalog
