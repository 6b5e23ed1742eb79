import SchemaBindings.Proofs.Catalog.Ownership

/-! Which places are around another, and which of their declarations owns its own: the one that
stands for the nearest declared place. A type hint suppresses a declaration exactly when it stands at
a declared place around the declaration's, or there. -/

namespace SchemaBindings.Catalog

open Schema (Regular)

variable {schema : Schema} {rootName : String} {catalog : Catalog}

/-- Steps lead from the one place to the other, if they are not the same. -/
inductive Encloses (outer : Place) : Place → Prop
  | here : Encloses outer outer
  | down {p : Place} {step : Step} {node : Node} (within : Encloses outer p)
      (leads : HasStep p.node step node) : Encloses outer (p.down step node)

/-- Of the places around the second, it included, the first is the nearest that is declared. -/
inductive Nearest (holder : Place) : Place → Prop
  | own (declared : holder.isDeclared = true) : Nearest holder holder
  | inline {p : Place} {step : Step} {node : Node} (within : Nearest holder p)
      (leads : HasStep p.node step node) (plain : (p.down step node).isDeclared = false) :
      Nearest holder (p.down step node)

/-- The places that no hint stands around. One may stand at them. -/
inductive Exposed (schema : Schema) (rootName key : String) : Place → Prop
  | root : Exposed schema rootName key (rootPlace schema rootName)
  | definition {name : String} {node : Node} (member : (name, node) ∈ schema.definitions) :
      Exposed schema rootName key (definitionPlace (name, node))
  | down {p : Place} {step : Step} {node : Node} (within : Exposed schema rootName key p)
      (plain : p.node.metadata.hint? key = none) (leads : HasStep p.node step node) :
      Exposed schema rootName key (p.down step node)

section Places

variable {a b p : Place}

theorem isDeclared_of_getElem? {id : Nat} (found : (declaredPlaces schema rootName)[id]? = some p) :
    p.isDeclared = true :=
  (List.mem_filter.1 (List.mem_of_getElem? found)).2

theorem exists_getElem?_of_isDeclared (located : Located schema rootName p)
    (declared : p.isDeclared = true) : ∃ id : Nat, (declaredPlaces schema rootName)[id]? = some p :=
  List.mem_iff_getElem?.1 (List.mem_filter.2 ⟨mem_places_iff.2 located, declared⟩)

theorem number_unique (regular : Regular schema) {i j : Nat}
    (first : (declaredPlaces schema rootName)[i]? = some p)
    (second : (declaredPlaces schema rootName)[j]? = some p) : i = j :=
  getElem?_inj_of_nodup (nodup_pointer_declaredPlaces regular rootName).of_map first second

theorem Nearest.isDeclared (nearest : Nearest a p) : a.isDeclared = true := by
  induction nearest with
  | own declared => exact declared
  | inline _ _ _ ih => exact ih

theorem Nearest.encloses (nearest : Nearest a p) : Encloses a p := by
  induction nearest with
  | own => exact .here
  | inline _ leads _ ih => exact ih.down leads

theorem Encloses.trans {c : Place} (first : Encloses a b) (second : Encloses b c) :
    Encloses a c := by
  induction second with
  | here => exact first
  | down _ leads ih => exact ih.down leads

theorem Encloses.located (encloses : Encloses a p) (located : Located schema rootName a) :
    Located schema rootName p := by
  induction encloses with
  | here => exact located
  | down _ leads ih => exact .down ih leads

theorem Encloses.eq_of_top (encloses : Encloses a p) (top : p.step = none) : a = p := by
  cases encloses with
  | here => rfl
  | down => cases top

theorem Exposed.located {key : String} (exposed : Exposed schema rootName key p) :
    Located schema rootName p := by
  induction exposed with
  | root => exact .root
  | definition member => exact .definition member
  | down _ _ leads ih => exact ih.down leads

theorem Exposed.hint?_eq_none (regular : Regular schema) {key : String}
    (exposed : Exposed schema rootName key p) (plain : p.node.metadata.hint? key = none)
    (located : Located schema rootName a) (encloses : Encloses a p) :
    a.node.metadata.hint? key = none := by
  induction exposed with
  | root =>
    obtain rfl := encloses.eq_of_top rfl
    exact plain
  | definition =>
    obtain rfl := encloses.eq_of_top rfl
    exact plain
  | @down q step node within above leads ih =>
    generalize same : q.down step node = r at encloses
    cases encloses with
    | here => exact same ▸ plain
    | down around _ =>
      obtain rfl := eq_of_down_eq regular within.located (around.located located) same
      exact ih above around

theorem Nearest.eq_of_isDeclared (nearest : Nearest a p) (declared : p.isDeclared = true) :
    a = p := by
  cases nearest with
  | own => rfl
  | inline _ _ plain => cases plain.symm.trans declared

theorem Nearest.unique (regular : Regular schema) (first : Nearest a p) (second : Nearest b p)
    (located : Located schema rootName a) (other : Located schema rootName b) : a = b := by
  induction first generalizing b with
  | own declared => exact (second.eq_of_isDeclared declared).symm
  | @inline q step node within leads plain ih =>
    generalize same : q.down step node = r at second
    cases second with
    | own declared => cases (same ▸ plain).symm.trans declared
    | inline within' leads' _ =>
      obtain rfl := eq_of_down_eq regular (within.encloses.located located)
        (within'.encloses.located other) same
      exact ih within' other

theorem isDeclared_down (p : Place) {step : Step} (plain : ∀ tagValue, step ≠ .variant tagValue)
    (node : Node) : (p.down step node).isDeclared = node.isNameable := by
  cases step with
  | variant tagValue => exact (plain tagValue rfl).elim
  | _ => rfl

/-- What a member or what is wrapped comes down to lies right below a place whose nearest declared
one is that of the declaration, or is that place. -/
theorem exists_nearest_of_itemOf {holder q : Place} (declared : holder.isDeclared = true)
    (head : HeadOf holder p) (item : ItemOf p q) :
    q = holder ∨ ∃ r step node, Nearest holder r ∧ HasStep r.node step node ∧
      (∀ tagValue, step ≠ .variant tagValue) ∧ q = r.down step node := by
  have inline {r : Place} (plain : r.node.isNameable = false)
      (above : r = holder ∨ ∃ t step node, Nearest holder t ∧ HasStep t.node step node ∧
        (∀ tagValue, step ≠ .variant tagValue) ∧ r = t.down step node) : Nearest holder r := by
    rcases above with rfl | ⟨t, step, node, nearest, leads, noVariant, rfl⟩
    · exact .own declared
    · exact .inline nearest leads ((isDeclared_down t noVariant node).trans plain)
  induction item with
  | here =>
    cases head with
    | member leads => exact .inr ⟨_, _, _, .own declared, leads, nofun, rfl⟩
    | wrapped => exact .inl rfl
  | element _ form ih =>
    have nearest := inline (by simp [Node.isNameable, form]) ih
    exact .inr ⟨_, _, _, nearest, .element form, nofun, rfl⟩
  | value _ form ih =>
    have nearest := inline (by simp [Node.isNameable, form]) ih
    exact .inr ⟨_, _, _, nearest, .value form, nofun, rfl⟩

end Places

section Owners

variable (mirrors : Mirrors schema rootName catalog) (regular : Regular schema)
  (linked : Linked catalog)

include mirrors regular linked

/-- A nested declaration stands right below a place whose nearest declared one is its owner's. -/
theorem nearest_of_nestedIn {owner d : Declaration} (outer : owner ∈ catalog.declarations)
    (inside : d ∈ catalog.declarations) (nested : NestedIn owner d) {holder place : Place}
    (held : (declaredPlaces schema rootName)[owner.id]? = some holder)
    (found : (declaredPlaces schema rootName)[d.id]? = some place) :
    ∃ r step node, Nearest holder r ∧ HasStep r.node step node ∧ place = r.down step node := by
  obtain ⟨_, same, describes⟩ := mirrors.place_of_mem linked outer
  rw [Option.some.inj (same.symm.trans held)] at describes
  have declared := isDeclared_of_getElem? held
  have distinct : place ≠ holder := by
    rintro rfl
    exact Nat.ne_of_lt nested.later (number_unique regular held found)
  have ofUse {use : TypeUse} (used : use ∈ owner.shape.uses)
      (inner : use.innermost? = some d.id) :
      ∃ r step node, Nearest holder r ∧ HasStep r.node step node ∧ place = r.down step node := by
    obtain ⟨p, head, means⟩ := describes.shape.head_of_mem_uses used
    rcases means.reaches inner with top | ⟨q, item, known⟩
    · cases nested.owned.symm.trans ((mirrors.top d inside).2 top)
    · obtain rfl := Option.some.inj (known.symm.trans found)
      rcases exists_nearest_of_itemOf declared head item with
        same | ⟨r, step, node, nearest, leads, -, eq⟩
      · exact (distinct same).elim
      · exact ⟨r, step, node, nearest, leads, eq⟩
  cases nested.hangs with
  | member listed use _ _ => exact ofUse (Shape.type_mem_uses listed) use
  | item wrapper use _ _ => exact ofUse (wrapper ▸ List.mem_cons_self) use
  | variant union listed _ _ =>
    have shaped := describes.shape
    rw [union] at shaped
    cases shaped with
    | own _ shaped =>
      cases shaped with
      | union form all_variants =>
        obtain ⟨i, there⟩ := List.mem_iff_getElem?.1 listed
        obtain ⟨entry, inside, -, numbered⟩ := getElem?_of_forall₂ all_variants.flip there
        obtain rfl := Option.some.inj (numbered.symm.trans found)
        exact ⟨_, _, _, .own declared, .variant form (List.mem_of_getElem? inside), rfl⟩

/-- A declaration is owned by the one that stands for the nearest declared place around its own. -/
theorem owner_of_nearest {holder p : Place} {step : Step} {node : Node} {d : Declaration}
    (inside : d ∈ catalog.declarations)
    (found : (declaredPlaces schema rootName)[d.id]? = some (p.down step node))
    (nearest : Nearest holder p) (located : Located schema rootName holder) :
    ∃ owner, d.owner = some owner ∧ (declaredPlaces schema rootName)[owner]? = some holder := by
  have below : d.owner ≠ none := fun none => by
    cases step_eq_none_of_le ((mirrors.top d inside).1 none) found
  obtain ⟨owner, outer, nested⟩ := mirrors.nested d inside below
  obtain ⟨own, held, -⟩ := mirrors.place_of_mem linked outer
  obtain ⟨r, _, _, nearest', -, same⟩ :=
    nearest_of_nestedIn mirrors regular linked outer inside nested held found
  have ownLocated := located_of_getElem? held
  obtain rfl := eq_of_down_eq regular (nearest.encloses.located located)
    (nearest'.encloses.located ownLocated) same
  exact ⟨owner.id, nested.owned,
    nearest.unique regular nearest' located ownLocated ▸ held⟩

variable {key : String}

/-- Around a suppressed declaration, or at it, a hint stands at a declared place. -/
theorem exists_hinted_of_suppressed {id : Nat} {place : Place}
    (suppressed : Suppressed key catalog id)
    (found : (declaredPlaces schema rootName)[id]? = some place) :
    ∃ outer, Located schema rootName outer ∧ Encloses outer place ∧ outer.isDeclared = true ∧
      (outer.node.metadata.hint? key).isSome := by
  induction suppressed generalizing place with
  | hinted declared hint =>
    obtain ⟨_, same, describes⟩ := mirrors.place_at declared
    obtain rfl := Option.some.inj (same.symm.trans found)
    exact ⟨_, located_of_getElem? found, .here, isDeclared_of_getElem? found,
      describes.metadata ▸ hint⟩
  | @nested id owner d declared owned _ ih =>
    have inside := List.mem_of_getElem? declared
    obtain rfl := linked.ids id d declared
    obtain ⟨o, outer, nested⟩ := mirrors.nested d inside (by simp [owned])
    obtain ⟨holder, held, -⟩ := mirrors.place_of_mem linked outer
    obtain ⟨r, step, node, nearest, leads, rfl⟩ :=
      nearest_of_nestedIn mirrors regular linked outer inside nested held found
    obtain rfl := Option.some.inj (nested.owned.symm.trans owned)
    obtain ⟨hinted, located, encloses, hint⟩ := ih held
    exact ⟨hinted, located, (encloses.trans nearest.encloses).down leads, hint⟩

/-- What a suppressed place is around is suppressed with it, if a declaration stands for it. -/
theorem exists_suppressed_nearest {id : Nat} {outer p : Place}
    (suppressed : Suppressed key catalog id)
    (found : (declaredPlaces schema rootName)[id]? = some outer) (encloses : Encloses outer p) :
    ∃ holder number, Nearest holder p ∧ Suppressed key catalog number ∧
      (declaredPlaces schema rootName)[number]? = some holder := by
  induction encloses with
  | here =>
    exact ⟨outer, id, .own (isDeclared_of_getElem? found), suppressed, found⟩
  | @down p step node within leads ih =>
    obtain ⟨holder, number, nearest, above, held⟩ := ih
    cases declared : (p.down step node).isDeclared with
    | false => exact ⟨holder, number, .inline nearest leads declared, above, held⟩
    | true =>
      have located := Located.down (within.located (located_of_getElem? found)) leads
      obtain ⟨own, numbered⟩ := exists_getElem?_of_isDeclared located declared
      obtain ⟨d, known, -⟩ := mirrors.declaration_at numbered
      obtain rfl := linked.ids own d known
      obtain ⟨owner, owned, same⟩ := owner_of_nearest mirrors regular linked
        (List.mem_of_getElem? known) numbered nearest (located_of_getElem? held)
      obtain rfl := number_unique regular same held
      exact ⟨_, d.id, .own declared, .nested known owned above, numbered⟩

/-- A declaration is suppressed exactly when a hint stands at a declared place around its own, or
there. -/
theorem suppressed_iff_exists_hinted {id : Nat} {place : Place}
    (found : (declaredPlaces schema rootName)[id]? = some place) :
    Suppressed key catalog id ↔ ∃ outer, Located schema rootName outer ∧ Encloses outer place ∧
      outer.isDeclared = true ∧ (outer.node.metadata.hint? key).isSome := by
  refine ⟨fun suppressed => exists_hinted_of_suppressed mirrors regular linked suppressed found, ?_⟩
  rintro ⟨outer, located, encloses, declared, hint⟩
  obtain ⟨number, numbered⟩ := exists_getElem?_of_isDeclared located declared
  obtain ⟨d, known, describes⟩ := mirrors.declaration_at numbered
  have own : Suppressed key catalog number := .hinted known (describes.metadata ▸ hint)
  obtain ⟨holder, other, nearest, suppressed, held⟩ :=
    exists_suppressed_nearest mirrors regular linked own numbered encloses
  obtain rfl := nearest.eq_of_isDeclared (isDeclared_of_getElem? found)
  obtain rfl := number_unique regular held found
  exact suppressed

end Owners

end SchemaBindings.Catalog
