import SchemaBindings.Proofs.Catalog.Growth

/-! A catalog has one declaration for each node that needs one, and lists them in pre-order: what is
inside a node comes after it, and siblings come by name. -/

namespace SchemaBindings.Catalog

open Keyed (Increasing)
open Schema (Regular Contains)

/-- Steps lead from the one place to the other, if they are not the same. -/
inductive LiesIn (place : Place) : Place → Prop
  | here : LiesIn place place
  | down {p : Place} {step : Step} {node : Node} (within : LiesIn place p)
      (leads : HasStep p.node step node) : LiesIn place (p.down step node)

/-- The order of a depth-first walk that enters a node before what is inside it, and of two nodes
side by side the one with the lesser name first. -/
inductive Precedes : Place → Place → Prop
  | inside {p q : Place} {step : Step} {node : Node} (leads : HasStep p.node step node)
      (within : LiesIn (p.down step node) q) : Precedes p q
  | aside {parent p q : Place} {left right : Step} {leftNode rightNode : Node}
      (first : HasStep parent.node left leftNode) (second : HasStep parent.node right rightNode)
      (less : left.name < right.name) (inLeft : LiesIn (parent.down left leftNode) p)
      (inRight : LiesIn (parent.down right rightNode) q) : Precedes p q

/-- Whether a node needs a declaration: it is the root or a definition, it stands for a value of a
tag, or its form is one that is declared by name. -/
inductive NeedsDeclaration (place : Place) : Prop
  | top (none : place.step = none)
  | variant {tagValue : String} (step : place.step = some (.variant tagValue))
  | properties {required optional : List (String × Node)} {additional : Bool}
      (form : place.node.form = .properties required optional additional)
  | enum {values : List String} (form : place.node.form = .enum values)
  | discriminator {tag : String} {mapping : List (String × Node)}
      (form : place.node.form = .discriminator tag mapping)

/-- The declarations of a catalog beside the places of its schema that they stand for. -/
structure PreOrdered (schema : Schema) (rootName : String) (all : List Place) (catalog : Catalog) :
    Prop where
  described : List.Forall₂ (Describes schema all) all catalog.declarations
  exact : ∀ place, place ∈ all ↔ Located schema rootName place ∧ NeedsDeclaration place
  once : all.Nodup
  /-- After the root and the definitions comes what is nested in each of them, in the same order. -/
  order : ∃ nested : List (List Place),
    all = topPlaces schema rootName ++ nested.flatten ∧
      List.Forall₂ (fun top below => below.Pairwise Precedes ∧
        ∀ place ∈ below, ∃ step node, HasStep top.node step node ∧
          LiesIn (top.down step node) place) (topPlaces schema rootName) nested
  definitions : Increasing schema.definitions
  top : ∀ d ∈ catalog.declarations, d.owner = none ↔ d.id ≤ schema.definitions.length
  nested : ∀ d ∈ catalog.declarations, d.owner ≠ none →
    ∃ owner ∈ catalog.declarations, NestedIn owner d
  pointers : (catalog.declarations.map Declaration.pointer).Nodup

section Order

theorem LiesIn.trans {a b c : Place} (first : LiesIn a b) (second : LiesIn b c) : LiesIn a c := by
  induction second with
  | here => exact first
  | down _ leads ih => exact ih.down leads

theorem liesIn_of_mem_placesBelow {place : Place} {steps : List (Step × Node)} {p : Place}
    (member : p ∈ placesBelow place steps) : ∃ e ∈ steps, LiesIn (place.down e.1 e.2) p := by
  fun_induction placesBelow place steps with
  | case1 => cases member
  | case2 place step node rest _ ihBelow ihRest =>
    rcases List.mem_append.1 member with member | member
    · refine ⟨_, List.mem_cons_self, ?_⟩
      rcases List.mem_cons.1 member with rfl | member
      · exact .here
      · obtain ⟨e, inside, within⟩ := ihBelow member
        exact (LiesIn.here.down (mem_stepsOf.1 inside)).trans within
    · obtain ⟨e, inside, within⟩ := ihRest member
      exact ⟨e, List.mem_cons_of_mem _ inside, within⟩

theorem liesIn_of_mem_below {place p : Place} (member : p ∈ place.below) :
    ∃ step node, HasStep place.node step node ∧ LiesIn (place.down step node) p := by
  obtain ⟨e, inside, within⟩ := liesIn_of_mem_placesBelow member
  exact ⟨e.1, e.2, mem_stepsOf.1 inside, within⟩

variable {schema : Schema} {rootName : String}

theorem pairwise_precedes_placesBelow (regular : Regular schema) {place : Place}
    {steps : List (Step × Node)} (within : Contains schema place.node)
    (leads : ∀ e ∈ steps, HasStep place.node e.1 e.2)
    (sorted : steps.Pairwise (fun a b => a.1.name < b.1.name)) :
    (placesBelow place steps).Pairwise Precedes := by
  fun_induction placesBelow place steps with
  | case1 => exact .nil
  | case2 place step node rest _ ihBelow ihRest =>
    obtain ⟨first, others⟩ := List.forall_mem_cons.1 leads
    obtain ⟨less, later⟩ := List.pairwise_cons.1 sorted
    have child : Contains schema node := .child within first.hasChild
    have below : (place.down step node).below.Pairwise Precedes :=
      ihBelow child (fun e => mem_stepsOf.1) (increasing_stepsOf (regular.nodes _ child))
    refine List.pairwise_append.2 ⟨List.pairwise_cons.2 ⟨?_, below⟩, ihRest within others later, ?_⟩
    · intro p member
      obtain ⟨_, _, leads, lies⟩ := liesIn_of_mem_below member
      exact .inside leads lies
    · -- Both lie below `place`, the one by this step and the other by a later one.
      intro p left q right
      obtain ⟨e, listed, inRight⟩ := liesIn_of_mem_placesBelow right
      have inLeft : LiesIn (place.down step node) p := by
        rcases List.mem_cons.1 left with rfl | left
        · exact .here
        · obtain ⟨_, _, leads, lies⟩ := liesIn_of_mem_below left
          exact (LiesIn.here.down leads).trans lies
      exact .aside first (others e listed) (less e listed) inLeft inRight

theorem pairwise_precedes_declaredBelow (regular : Regular schema) {place : Place}
    (within : Contains schema place.node) : place.declaredBelow.Pairwise Precedes := by
  have below : place.below.Pairwise Precedes :=
    pairwise_precedes_placesBelow regular within (fun e => mem_stepsOf.1)
      (increasing_stepsOf (regular.nodes _ within))
  exact below.sublist List.filter_sublist

theorem isDeclared_iff {place : Place} : place.isDeclared = true ↔ NeedsDeclaration place := by
  constructor
  · intro declared
    cases form : place.node.form with
    | enum values => exact .enum form
    | properties required optional additional => exact .properties form
    | discriminator tag mapping => exact .discriminator form
    | _ =>
      unfold Place.isDeclared Node.isNameable at declared
      cases step : place.step with
      | none => exact .top step
      | some step' =>
        cases step' with
        | variant tagValue => exact .variant step
        | _ => simp [step, form] at declared
  · intro needs
    have nameable {form : Form} (same : place.node.form = form)
        (named : Node.isNameable ⟨form, false, .empty⟩ = true) : place.isDeclared = true := by
      have own : place.node.isNameable = true := by
        unfold Node.isNameable
        rwa [same]
      unfold Place.isDeclared
      split <;> simp [own]
    cases needs with
    | top none => rw [Place.isDeclared, none]
    | variant step => rw [Place.isDeclared, step]
    | properties form => exact nameable form rfl
    | enum form => exact nameable form rfl
    | discriminator form => exact nameable form rfl

theorem mem_declaredPlaces_iff {place : Place} :
    place ∈ declaredPlaces schema rootName ↔
      Located schema rootName place ∧ NeedsDeclaration place := by
  rw [declaredPlaces, List.mem_filter, mem_places_iff, isDeclared_iff]

theorem contains_of_mem_topPlaces {place : Place} (member : place ∈ topPlaces schema rootName) :
    Contains schema place.node := by
  have located : Located schema rootName place := mem_places_iff.1 (List.mem_append_left _ member)
  exact located.contains

theorem nodup_pointer_declaredPlaces (regular : Regular schema) (rootName : String) :
    ((declaredPlaces schema rootName).map Place.pointer).Nodup := by
  have all := nodup_pointer_places regular rootName
  exact all.sublist (List.filter_sublist.map Place.pointer)

end Order

theorem preOrdered_of_mirrors {schema : Schema} {rootName : String} {catalog : Catalog}
    (mirrors : Mirrors schema rootName catalog) (regular : Regular schema) :
    PreOrdered schema rootName (declaredPlaces schema rootName) catalog := by
  have distinct := nodup_pointer_declaredPlaces regular rootName
  constructor
  case described => exact mirrors.described
  case exact => exact fun place => mem_declaredPlaces_iff
  case once => exact distinct.of_map
  case order =>
    refine ⟨(topPlaces schema rootName).map Place.declaredBelow, ?_, ?_⟩
    · rw [declaredPlaces_eq, List.flatMap_def]
    · refine List.forall₂_map_right_iff.2 (List.forall₂_same.2 fun top member => ⟨?_, ?_⟩)
      · exact pairwise_precedes_declaredBelow regular (contains_of_mem_topPlaces member)
      · exact fun place inside => liesIn_of_mem_below (List.mem_filter.1 inside).1
  case definitions => exact regular.definitions
  case top => exact mirrors.top
  case nested => exact mirrors.nested
  case pointers =>
    have same : catalog.declarations.map Declaration.pointer =
        (declaredPlaces schema rootName).map Place.pointer :=
      map_eq_of_forall₂ (mirrors.described.imp fun _ _ describes => describes.pointer)
    rwa [same]

/-- One declaration stands for each node that needs one, and they come in pre-order. -/
theorem preOrdered_ofSchema {document : Json} {schema : Schema}
    (read : Schema.ofJson document = .ok schema) (rootName : String) :
    ∃ all, PreOrdered schema rootName all (ofSchema schema rootName) := by
  have regular := Schema.regular_of_ofJson read
  exact ⟨_, preOrdered_of_mirrors (mirrors_ofSchema regular rootName) regular⟩

theorem preOrdered_drawing :
    ∃ schema all, Schema.ofJson Schema.drawing = .ok schema ∧
      PreOrdered schema "drawing" all (ofSchema schema "drawing") := by
  obtain ⟨schema, read⟩ := Schema.exists_ofJson_drawing
  obtain ⟨all, ordered⟩ := preOrdered_ofSchema read "drawing"
  exact ⟨schema, all, read, ordered⟩

end SchemaBindings.Catalog
