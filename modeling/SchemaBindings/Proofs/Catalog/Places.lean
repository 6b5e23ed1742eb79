import Mathlib.Data.List.Nodup
import Mathlib.Data.List.Perm.Basic
import SchemaBindings.Catalog.OfSchema
import SchemaBindings.Proofs.Json.Segments
import SchemaBindings.Proofs.Schema.Regular

/-! The places of a schema, each a node with the way that leads to it. They are listed in pre-order,
the properties of a node by name and the entries of a mapping by tag value; pointers tell them
apart. -/

namespace SchemaBindings.Catalog

open Keyed (keys Increasing)
open Schema (Contains HasChild RegularNode Regular)

/-- A step down from a node. -/
inductive Step
  | element
  | value
  | property (name : String) (required : Bool)
  | variant (tagValue : String)
  deriving DecidableEq, Repr

namespace Step

/-- The name that orders a step among its siblings; an item has none. -/
def name : Step → String
  | element | value => ""
  | property name _ => name
  | variant tagValue => tagValue

/-- What the step adds to a pointer. -/
def segments : Step → List String
  | element => ["elements"]
  | value => ["values"]
  | property name required => [if required then "properties" else "optionalProperties", name]
  | variant tagValue => ["mapping", tagValue]

/-- What the step makes of the wire names on the way; an item adds none. -/
def extend (path : List String) : Step → List String
  | element | value => path
  | property name _ => path ++ [name]
  | variant tagValue => path ++ [tagValue]

end Step

/-- The step leads from one node to another. -/
inductive HasStep (node : Node) : Step → Node → Prop
  | element {item : Node} (form : node.form = .elements item) : HasStep node .element item
  | value {item : Node} (form : node.form = .values item) : HasStep node .value item
  | required {required optional : List (String × Node)} {additional : Bool} {name : String}
      {child : Node} (form : node.form = .properties required optional additional)
      (member : (name, child) ∈ required) : HasStep node (.property name true) child
  | optional {required optional : List (String × Node)} {additional : Bool} {name : String}
      {child : Node} (form : node.form = .properties required optional additional)
      (member : (name, child) ∈ optional) : HasStep node (.property name false) child
  | variant {tag : String} {mapping : List (String × Node)} {tagValue : String} {child : Node}
      (form : node.form = .discriminator tag mapping) (member : (tagValue, child) ∈ mapping) :
      HasStep node (.variant tagValue) child

def propertySteps (properties : List Property) : List (Step × Node) :=
  properties.map (fun p => (.property p.name p.required, p.node))

def variantSteps (entries : List (String × Node)) : List (Step × Node) :=
  entries.map (fun entry => (.variant entry.1, entry.2))

/-- All steps down from a form, in order. -/
def stepsOf : Form → List (Step × Node)
  | .elements item => [(.element, item)]
  | .values item => [(.value, item)]
  | .properties required optional _ => propertySteps (merge required optional)
  | .discriminator _ mapping => variantSteps mapping
  | _ => []

section Merge

theorem mem_merge {required optional : List (String × Node)} {p : Property} :
    p ∈ merge required optional ↔
      (p.name, p.node) ∈ if p.required then required else optional := by
  obtain ⟨name, isRequired, node⟩ := p
  fun_induction merge required optional with
  | case1 optional => cases isRequired <;> simp
  | case2 required _ => cases isRequired <;> simp
  | case3 r rNode rs o oNode os _ ih =>
    rw [List.mem_cons, ih]
    cases isRequired <;> simp
  | case4 r rNode rs o oNode os _ ih =>
    rw [List.mem_cons, ih]
    cases isRequired <;> simp

theorem increasing_merge {required optional : List (String × Node)}
    (requiredIncreasing : Increasing required) (optionalIncreasing : Increasing optional)
    (disjoint : ∀ name ∈ keys required, name ∉ keys optional) :
    (merge required optional).Pairwise (fun p q => p.name < q.name) := by
  fun_induction merge required optional with
  | case1 optional => exact List.pairwise_map.2 optionalIncreasing
  | case2 required _ => exact List.pairwise_map.2 requiredIncreasing
  | case3 r rNode rs o oNode os less ih =>
    obtain ⟨first, later⟩ := List.pairwise_cons.1 optionalIncreasing
    refine List.pairwise_cons.2 ⟨fun p member => ?_, ih requiredIncreasing later ?_⟩
    · rw [mem_merge] at member
      split at member
      · rcases List.mem_cons.1 member with same | member
        · cases same
          exact less
        · exact String.lt_trans less ((List.pairwise_cons.1 requiredIncreasing).1 _ member)
      · exact first _ member
    · exact fun name inside => fun member => disjoint name inside (List.mem_cons_of_mem _ member)
  | case4 r rNode rs o oNode os notLess ih =>
    obtain ⟨first, later⟩ := List.pairwise_cons.1 requiredIncreasing
    have distinct : r ≠ o := fun same =>
      disjoint r List.mem_cons_self (same ▸ List.mem_cons_self)
    have less : r < o := by
      refine Decidable.byContradiction fun notMore => distinct ?_
      exact String.le_antisymm (String.not_lt.1 notLess) (String.not_lt.1 notMore)
    refine List.pairwise_cons.2 ⟨fun p member => ?_, ih later optionalIncreasing ?_⟩
    · rw [mem_merge] at member
      split at member
      · exact first _ member
      · rcases List.mem_cons.1 member with same | member
        · cases same
          exact less
        · exact String.lt_trans less ((List.pairwise_cons.1 optionalIncreasing).1 _ member)
    · exact fun name inside => disjoint name (List.mem_cons_of_mem _ inside)

end Merge

theorem mem_stepsOf {node child : Node} {step : Step} :
    (step, child) ∈ stepsOf node.form ↔ HasStep node step child := by
  constructor
  · intro member
    cases form : node.form with
    | elements item =>
      simp only [form, stepsOf, List.mem_singleton, Prod.mk.injEq] at member
      obtain ⟨rfl, rfl⟩ := member
      exact .element form
    | values item =>
      simp only [form, stepsOf, List.mem_singleton, Prod.mk.injEq] at member
      obtain ⟨rfl, rfl⟩ := member
      exact .value form
    | properties required optional additional =>
      simp only [form, stepsOf, propertySteps, List.mem_map, Prod.mk.injEq] at member
      obtain ⟨⟨name, isRequired, _⟩, inside, rfl, rfl⟩ := member
      rw [mem_merge] at inside
      cases isRequired with
      | true => exact .required form inside
      | false => exact .optional form inside
    | discriminator tag mapping =>
      simp only [form, stepsOf, variantSteps, List.mem_map, Prod.mk.injEq] at member
      obtain ⟨entry, inside, rfl, rfl⟩ := member
      exact .variant form inside
    | _ => simp [form, stepsOf] at member
  · intro down
    cases down with
    | element form => simp [form, stepsOf]
    | value form => simp [form, stepsOf]
    | required form member =>
      rw [form]
      exact List.mem_map.2 ⟨⟨_, true, _⟩, mem_merge.2 member, rfl⟩
    | optional form member =>
      rw [form]
      exact List.mem_map.2 ⟨⟨_, false, _⟩, mem_merge.2 member, rfl⟩
    | variant form member =>
      rw [form]
      exact List.mem_map.2 ⟨_, member, rfl⟩

theorem HasStep.hasChild {node child : Node} {step : Step} (down : HasStep node step child) :
    HasChild node child := by
  cases down with
  | element form => exact .element form
  | value form => exact .value form
  | required form member => exact .required form member
  | optional form member => exact .optional form member
  | variant form member => exact .variant form member

/-- The steps down from a node are listed by name. -/
theorem increasing_stepsOf {node : Node} (regular : RegularNode node) :
    (stepsOf node.form).Pairwise (fun a b => a.1.name < b.1.name) := by
  cases form : node.form with
  | properties required optional additional =>
    obtain ⟨requiredIncreasing, optionalIncreasing, disjoint⟩ := regular.properties _ _ _ form
    exact List.pairwise_map.2 (increasing_merge requiredIncreasing optionalIncreasing disjoint)
  | discriminator tag mapping => exact List.pairwise_map.2 (regular.mapping _ _ form).1
  | _ => simp [stepsOf]

/-- A node of a schema, the step that leads to it, and what is known of the way there. -/
structure Place where
  /-- The root and the definitions have none. -/
  step : Option Step
  path : List String
  pointer : Pointer
  node : Node

namespace Place

def down (place : Place) (step : Step) (node : Node) : Place :=
  ⟨some step, step.extend place.path, place.pointer.descend step.segments, node⟩

/-- Whether a declaration stands for the node: at the top always, elsewhere when it is nameable or
an entry of a mapping. -/
def isDeclared (place : Place) : Bool :=
  match place.step with
  | none => true
  | some (.variant _) => true
  | some _ => place.node.isNameable

end Place

def stepsSize : List (Step × Node) → Nat
  | [] => 0
  | (_, node) :: rest => node.size + 1 + stepsSize rest

theorem stepsSize_propertySteps (properties : List Property) :
    stepsSize (propertySteps properties) = propertiesSize properties := by
  induction properties with
  | nil => rfl
  | cons p rest ih =>
    simp only [propertySteps, List.map_cons, stepsSize, propertiesSize] at ih ⊢
    omega

theorem stepsSize_variantSteps (entries : List (String × Node)) :
    stepsSize (variantSteps entries) = entriesSize entries := by
  induction entries with
  | nil => rfl
  | cons entry rest ih =>
    simp only [variantSteps, List.map_cons, stepsSize, entriesSize] at ih ⊢
    omega

theorem stepsSize_stepsOf (node : Node) : stepsSize (stepsOf node.form) ≤ node.size := by
  obtain ⟨form, nullable, metadata⟩ := node
  cases form with
  | properties required optional additional =>
    simp only [Node.form, stepsOf, stepsSize_propertySteps, propertiesSize_merge, Node.size,
      Form.size]
    omega
  | discriminator tag mapping =>
    simp only [Node.form, stepsOf, stepsSize_variantSteps, Node.size, Form.size]
    omega
  | _ => simp only [Node.form, stepsOf, stepsSize, Node.size, Form.size]; omega

/-- The places that the steps lead to, each followed by the places below it. -/
def placesBelow (place : Place) : List (Step × Node) → List Place
  | [] => []
  | (step, node) :: rest =>
    have := stepsSize_stepsOf node
    place.down step node :: placesBelow (place.down step node) (stepsOf node.form) ++
      placesBelow place rest
termination_by steps => stepsSize steps
decreasing_by all_goals simp only [stepsSize]; omega

def Place.below (place : Place) : List Place := placesBelow place (stepsOf place.node.form)

def rootPlace (schema : Schema) (rootName : String) : Place :=
  ⟨none, [rootName], .root, schema.root⟩

def definitionPlace (definition : String × Node) : Place :=
  ⟨none, [definition.1], Pointer.root.descend ["definitions", definition.1], definition.2⟩

def topPlaces (schema : Schema) (rootName : String) : List Place :=
  rootPlace schema rootName :: schema.definitions.map definitionPlace

/-- The root, the definitions, and then what is below each of them. -/
def places (schema : Schema) (rootName : String) : List Place :=
  topPlaces schema rootName ++ (topPlaces schema rootName).flatMap Place.below

/-- The places that declarations stand for. -/
def declaredPlaces (schema : Schema) (rootName : String) : List Place :=
  (places schema rootName).filter Place.isDeclared

/-- The places that steps lead to from the root and the definitions. -/
inductive Located (schema : Schema) (rootName : String) : Place → Prop
  | root : Located schema rootName (rootPlace schema rootName)
  | definition {name : String} {node : Node} (member : (name, node) ∈ schema.definitions) :
      Located schema rootName (definitionPlace (name, node))
  | down {place : Place} {step : Step} {node : Node} (within : Located schema rootName place)
      (leads : HasStep place.node step node) : Located schema rootName (place.down step node)

section Listing

variable {schema : Schema} {rootName : String}

theorem Located.contains {place : Place} (located : Located schema rootName place) :
    Contains schema place.node := by
  induction located with
  | root => exact .root
  | definition member => exact .definition member
  | down _ leads ih => exact .child ih leads.hasChild

/-- Every node of a schema has a place. -/
theorem exists_located (rootName : String) {node : Node} (within : Contains schema node) :
    ∃ place, Located schema rootName place ∧ place.node = node := by
  induction within with
  | root => exact ⟨_, .root, rfl⟩
  | definition member => exact ⟨_, .definition member, rfl⟩
  | child _ below ih =>
    obtain ⟨place, located, rfl⟩ := ih
    cases below with
    | element form => exact ⟨_, .down located (.element form), rfl⟩
    | value form => exact ⟨_, .down located (.value form), rfl⟩
    | required form member => exact ⟨_, .down located (.required form member), rfl⟩
    | optional form member => exact ⟨_, .down located (.optional form member), rfl⟩
    | variant form member => exact ⟨_, .down located (.variant form member), rfl⟩

theorem placesBelow_cons (place : Place) (step : Step) (node : Node) (rest : List (Step × Node)) :
    placesBelow place ((step, node) :: rest) =
      place.down step node :: ((place.down step node).below ++ placesBelow place rest) := by
  rw [placesBelow]
  rfl

theorem located_of_mem_placesBelow {place : Place} {steps : List (Step × Node)}
    (located : Located schema rootName place)
    (leads : ∀ e ∈ steps, HasStep place.node e.1 e.2) {p : Place}
    (member : p ∈ placesBelow place steps) : Located schema rootName p := by
  fun_induction placesBelow place steps with
  | case1 => cases member
  | case2 place step node rest _ ihBelow ihRest =>
    obtain ⟨first, later⟩ := List.forall_mem_cons.1 leads
    have here : Located schema rootName (place.down step node) := .down located first
    rcases List.mem_append.1 member with member | member
    · rcases List.mem_cons.1 member with rfl | member
      · exact here
      · exact ihBelow here (fun e inside => mem_stepsOf.1 inside) member
    · exact ihRest located later member

theorem mem_placesBelow_of_mem {place : Place} {steps : List (Step × Node)} {step : Step}
    {node : Node} (member : (step, node) ∈ steps) :
    place.down step node ∈ placesBelow place steps := by
  induction steps with
  | nil => cases member
  | cons first rest ih =>
    rw [placesBelow_cons]
    rcases List.mem_cons.1 member with rfl | member
    · exact List.mem_cons_self
    · exact List.mem_cons_of_mem _ (List.mem_append_right _ (ih member))

theorem down_mem_below {place : Place} {step : Step} {node : Node}
    (leads : HasStep place.node step node) : place.down step node ∈ place.below :=
  mem_placesBelow_of_mem (mem_stepsOf.2 leads)

theorem down_mem_placesBelow {place : Place} {steps : List (Step × Node)} {p : Place}
    (member : p ∈ placesBelow place steps) {step : Step} {node : Node}
    (leads : HasStep p.node step node) : p.down step node ∈ placesBelow place steps := by
  fun_induction placesBelow place steps with
  | case1 => cases member
  | case2 place first child rest _ ihBelow ihRest =>
    rcases List.mem_append.1 member with member | member
    · refine List.mem_append_left _ (List.mem_cons_of_mem _ ?_)
      rcases List.mem_cons.1 member with rfl | member
      · exact down_mem_below leads
      · exact ihBelow member
    · exact List.mem_append_right _ (ihRest member)

/-- The list of places holds exactly those that steps lead to. -/
theorem mem_places_iff {place : Place} :
    place ∈ places schema rootName ↔ Located schema rootName place := by
  constructor
  · intro member
    have top : ∀ p ∈ topPlaces schema rootName, Located schema rootName p := by
      intro p member
      rcases List.mem_cons.1 member with rfl | member
      · exact .root
      · obtain ⟨definition, inside, rfl⟩ := List.mem_map.1 member
        exact .definition inside
    rcases List.mem_append.1 member with member | member
    · exact top place member
    · obtain ⟨p, inside, below⟩ := List.mem_flatMap.1 member
      exact located_of_mem_placesBelow (top p inside) (fun e => mem_stepsOf.1) below
  · intro located
    induction located with
    | root => exact List.mem_append_left _ List.mem_cons_self
    | definition member =>
      exact List.mem_append_left _ (List.mem_cons_of_mem _ (List.mem_map_of_mem member))
    | down _ leads ih =>
      refine List.mem_append_right _ (List.mem_flatMap.2 ?_)
      rcases List.mem_append.1 ih with top | member
      · exact ⟨_, top, down_mem_below leads⟩
      · obtain ⟨p, top, below⟩ := List.mem_flatMap.1 member
        exact ⟨p, top, down_mem_placesBelow below leads⟩

/-- What holds at every place holds of every node. -/
theorem forall_contains_of_places {P : Node → Prop} (rootName : String)
    (each : ∀ place ∈ places schema rootName, P place.node) (node : Node)
    (within : Contains schema node) : P node := by
  obtain ⟨place, located, rfl⟩ := exists_located rootName within
  exact each place (mem_places_iff.2 located)

end Listing

section Pointers

variable {schema : Schema} {rootName : String}

/-- Nothing below the one step is below the other. -/
def Step.Apart (a b : Step) : Prop := ∀ xs ys, a.segments ++ xs ≠ b.segments ++ ys

theorem Step.segments_ne_nil (step : Step) : step.segments ≠ [] := by
  cases step <;> simp [segments]

theorem apart_stepsOf {node : Node} (regular : RegularNode node) :
    (stepsOf node.form).Pairwise (fun a b => a.1.Apart b.1) := by
  have increasing := increasing_stepsOf regular
  cases form : node.form with
  | properties required optional additional =>
    rw [form] at increasing
    refine List.pairwise_map.2 ((List.pairwise_map.1 increasing).imp fun {p q} less xs ys => ?_)
    have distinct : p.name ≠ q.name := String.ne_of_lt less
    simp [Step.segments, distinct]
  | discriminator tag mapping =>
    rw [form] at increasing
    refine List.pairwise_map.2 ((List.pairwise_map.1 increasing).imp fun {p q} less xs ys => ?_)
    have distinct : p.1 ≠ q.1 := String.ne_of_lt less
    simp [Step.segments, distinct]
  | _ => simp [stepsOf]

theorem descend_descend (segs more : List String) :
    (Pointer.root.descend segs).descend more = Pointer.root.descend (segs ++ more) :=
  (Pointer.descend_append ..).symm

/-- The pointers below a place go on with one of its steps. -/
theorem pointer_of_mem_placesBelow {place : Place} {steps : List (Step × Node)}
    {segs : List String} (here : place.pointer = Pointer.root.descend segs) {p : Place}
    (member : p ∈ placesBelow place steps) :
    ∃ e ∈ steps, ∃ more, p.pointer = Pointer.root.descend (segs ++ (e.1.segments ++ more)) := by
  fun_induction placesBelow place steps generalizing segs with
  | case1 => cases member
  | case2 place step node rest _ ihBelow ihRest =>
    have next : (place.down step node).pointer = Pointer.root.descend (segs ++ step.segments) := by
      rw [Place.down, here, descend_descend]
    rcases List.mem_append.1 member with member | member
    · refine ⟨_, List.mem_cons_self, ?_⟩
      rcases List.mem_cons.1 member with rfl | member
      · exact ⟨[], by rw [next, List.append_nil]⟩
      · obtain ⟨e, -, more, same⟩ := ihBelow next member
        exact ⟨e.1.segments ++ more, by rw [same, List.append_assoc]⟩
    · obtain ⟨e, inside, more, same⟩ := ihRest here member
      exact ⟨e, List.mem_cons_of_mem _ inside, more, same⟩

theorem pointer_not_mem_below {place : Place} {segs : List String}
    (here : place.pointer = Pointer.root.descend segs) :
    place.pointer ∉ place.below.map Place.pointer := by
  intro again
  obtain ⟨p, inside, same⟩ := List.mem_map.1 again
  obtain ⟨e, -, more, longer⟩ := pointer_of_mem_placesBelow here inside
  rw [here, longer, Pointer.descend_root_inj] at same
  simp [Step.segments_ne_nil] at same

theorem nodup_pointer_placesBelow (regular : Regular schema) {place : Place}
    {steps : List (Step × Node)} {segs : List String}
    (here : place.pointer = Pointer.root.descend segs)
    (apart : steps.Pairwise (fun a b => a.1.Apart b.1))
    (within : ∀ e ∈ steps, Contains schema e.2) :
    ((placesBelow place steps).map Place.pointer).Nodup := by
  fun_induction placesBelow place steps generalizing segs with
  | case1 => exact .nil
  | case2 place step node rest _ ihBelow ihRest =>
    obtain ⟨first, later⟩ := List.pairwise_cons.1 apart
    obtain ⟨own, others⟩ := List.forall_mem_cons.1 within
    have next : (place.down step node).pointer = Pointer.root.descend (segs ++ step.segments) := by
      rw [Place.down, here, descend_descend]
    have below := ihBelow next (apart_stepsOf (regular.nodes node own))
      (fun e inside => .child own (mem_stepsOf.1 inside).hasChild)
    rw [List.map_append, List.map_cons]
    refine List.nodup_append.2 ⟨List.nodup_cons.2 ⟨pointer_not_mem_below next, below⟩,
      ihRest here later others, ?_⟩
    -- What is below the first step and what is below a later one part ways at that step.
    rintro pointer left _ right rfl
    have start : ∃ more, pointer = Pointer.root.descend (segs ++ (step.segments ++ more)) := by
      rcases List.mem_cons.1 left with rfl | left
      · exact ⟨[], by rw [next, List.append_nil]⟩
      · obtain ⟨p, inside, rfl⟩ := List.mem_map.1 left
        obtain ⟨e, -, more, same⟩ := pointer_of_mem_placesBelow next inside
        exact ⟨e.1.segments ++ more, by rw [same, List.append_assoc]⟩
    obtain ⟨more, same⟩ := start
    obtain ⟨p, inside, rfl⟩ := List.mem_map.1 right
    obtain ⟨e, listed, others, same'⟩ := pointer_of_mem_placesBelow here inside
    rw [same', Pointer.descend_root_inj, List.append_cancel_left_eq] at same
    exact first e listed _ _ same.symm

theorem nodup_pointer_top (regular : Regular schema) {place : Place} (segs : List String)
    (here : place.pointer = Pointer.root.descend segs) (within : Contains schema place.node) :
    ((place :: place.below).map Place.pointer).Nodup := by
  rw [List.map_cons]
  refine List.nodup_cons.2 ⟨pointer_not_mem_below here, ?_⟩
  exact nodup_pointer_placesBelow regular here (apart_stepsOf (regular.nodes _ within))
    (fun e inside => .child within (mem_stepsOf.1 inside).hasChild)

/-- The definition that a pointer leads into. -/
def definition? (p : Pointer) : Option String :=
  match p.segments with
  | "definitions" :: name :: _ => some name
  | _ => none

theorem definition?_of_mem_root {p : Place}
    (member : p ∈ rootPlace schema rootName :: (rootPlace schema rootName).below) :
    definition? p.pointer = none := by
  have here : (rootPlace schema rootName).pointer = Pointer.root.descend [] := rfl
  rcases List.mem_cons.1 member with rfl | member
  · rw [here, definition?, Pointer.segments_descend]
  · obtain ⟨e, -, more, same⟩ := pointer_of_mem_placesBelow here member
    rw [same, definition?, Pointer.segments_descend]
    cases e.1 with
    | property name required => cases required <;> simp [Step.segments]
    | _ => simp [Step.segments]

theorem definition?_of_mem_definition {definition : String × Node} {p : Place}
    (member : p ∈ definitionPlace definition :: (definitionPlace definition).below) :
    definition? p.pointer = some definition.1 := by
  have here : (definitionPlace definition).pointer =
      Pointer.root.descend ["definitions", definition.1] := rfl
  rcases List.mem_cons.1 member with rfl | member
  · rw [here, definition?, Pointer.segments_descend]
    rfl
  · obtain ⟨e, -, more, same⟩ := pointer_of_mem_placesBelow here member
    rw [same, definition?, Pointer.segments_descend]
    rfl

/-- No two places have the same pointer. -/
theorem nodup_pointer_places (regular : Regular schema) (rootName : String) :
    ((places schema rootName).map Place.pointer).Nodup := by
  have order : (places schema rootName).Perm
      ((topPlaces schema rootName).flatMap fun p => p :: p.below) := by
    have split := List.map_append_flatMap_perm (topPlaces schema rootName) id Place.below
    rwa [List.map_id] at split
  refine ((order.map Place.pointer).nodup_iff).2 ?_
  rw [List.map_flatMap, List.nodup_flatMap, topPlaces]
  constructor
  · intro top member
    rcases List.mem_cons.1 member with rfl | member
    · exact nodup_pointer_top regular [] rfl .root
    · obtain ⟨definition, inside, rfl⟩ := List.mem_map.1 member
      exact nodup_pointer_top regular ["definitions", definition.1] rfl (.definition inside)
  · refine List.pairwise_cons.2 ⟨fun top member => ?_, List.pairwise_map.2 ?_⟩
    · obtain ⟨definition, -, rfl⟩ := List.mem_map.1 member
      intro pointer left right
      obtain ⟨p, inRoot, rfl⟩ := List.mem_map.1 left
      obtain ⟨q, inDefinition, same⟩ := List.mem_map.1 right
      have none := definition?_of_mem_root inRoot
      rw [← same, definition?_of_mem_definition inDefinition] at none
      cases none
    · refine regular.definitions.imp fun {a b} less pointer left right => ?_
      obtain ⟨p, inFirst, rfl⟩ := List.mem_map.1 left
      obtain ⟨q, inSecond, same⟩ := List.mem_map.1 right
      have first := definition?_of_mem_definition inFirst
      rw [← same, definition?_of_mem_definition inSecond] at first
      exact String.ne_of_lt less (Option.some.inj first).symm

theorem place_eq_of_pointer_eq (regular : Regular schema) {p q : Place}
    (located : Located schema rootName p) (other : Located schema rootName q)
    (same : p.pointer = q.pointer) : p = q :=
  List.inj_on_of_nodup_map (nodup_pointer_places regular rootName) (mem_places_iff.2 located)
    (mem_places_iff.2 other) same

end Pointers

end SchemaBindings.Catalog
