import SchemaBindings.Proofs.Binding.Emitted
import SchemaBindings.Proofs.Catalog.Enclosing

/-! What a type hint keeps from being written. It does so for the declaration of its node and for all
declarations further in. On a list or a map that is not declared itself, the hint replaces the type
of the list or map, but the declaration of its item is still written. -/

namespace SchemaBindings.Binding

open Catalog (Encloses Located declaredPlaces)

/-- No hint stands at a declared place around the place, or at the place. -/
def Uncovered (schema : Schema) (rootName key : String) (place : Catalog.Place) : Prop :=
  ∀ outer, Located schema rootName outer → Encloses outer place → outer.isDeclared = true →
    outer.node.metadata.hint? key = none

theorem not_suppressed_iff_uncovered {schema : Schema} {rootName key : String} {catalog : Catalog}
    (mirrors : Catalog.Mirrors schema rootName catalog) (regular : Schema.Regular schema)
    (linked : catalog.Linked) {id : Nat} {place : Catalog.Place}
    (found : (declaredPlaces schema rootName)[id]? = some place) :
    ¬ Catalog.Suppressed key catalog id ↔ Uncovered schema rootName key place := by
  rw [Catalog.suppressed_iff_exists_hinted mirrors regular linked found]
  constructor
  · intro none outer located encloses declared
    exact Option.not_isSome_iff_eq_none.1 fun hint =>
      none ⟨outer, located, encloses, declared, hint⟩
  · rintro uncovered ⟨outer, located, encloses, declared, hint⟩
    rw [uncovered outer located encloses declared] at hint
    cases hint

section Rendering

variable {document : Json} {schema : Schema} {rootName : String} {t : Target}

theorem exists_pieces_of_render {rendered : Rendered}
    (renders : t.render (Catalog.ofSchema schema rootName) = .ok rendered) :
    ∃ pieces, t.pieces (namedFor t.language schema rootName) = .ok pieces ∧
      t.Assembles pieces rendered.files := by
  have files := files_of_render renders
  obtain ⟨language, package⟩ := t
  cases language with
  | java =>
    obtain ⟨drafts, drafted, same⟩ := (bind_eq_ok ..).1 files
    refine ⟨_, (bind_eq_ok ..).2 ⟨drafts, drafted, rfl⟩, JavaClasses.unsignedIn drafts, ?_⟩
    rw [← (pure_eq_ok ..).1 same, List.map_map]
    rfl
  | rust =>
    obtain ⟨items, itemsRead, same⟩ := (bind_eq_ok ..).1 files
    obtain ⟨drafts, drafted, lines⟩ := (bind_eq_ok ..).1 itemsRead
    refine ⟨_, (bind_eq_ok ..).2 ⟨drafts, drafted, rfl⟩, ?_⟩
    rw [Target.Assembles, ← (pure_eq_ok ..).1 same, ← (pure_eq_ok ..).1 lines, List.flatMap_map]
    rfl
  | go =>
    obtain ⟨drafts, drafted, same⟩ := (bind_eq_ok ..).1 files
    refine ⟨_, (bind_eq_ok ..).2 ⟨drafts, drafted, rfl⟩, GoPackage.imports drafts, ?_⟩
    rw [← (pure_eq_ok ..).1 same, List.flatMap_map]
    rfl
  | typescript =>
    obtain ⟨drafts, drafted, same⟩ := (bind_eq_ok ..).1 files
    refine ⟨_, (bind_eq_ok ..).2 ⟨drafts, drafted, rfl⟩, ?_⟩
    rw [Target.Assembles, ← (pure_eq_ok ..).1 same, List.flatMap_map]
    rfl

theorem selfContained_of_pieces (read : Schema.ofJson document = .ok schema) {pieces : List Piece}
    (made : t.pieces (namedFor t.language schema rootName) = .ok pieces) :
    SelfContained (hintsOf t.language).type (namedFor t.language schema rootName) pieces := by
  have regular := Schema.regular_of_ofJson read
  have linked := Catalog.linked_ofSchema schema rootName
  have mirrors := Catalog.mirrors_ofSchema regular rootName
  have consistent := Catalog.consistent_of_mirrors mirrors linked regular rfl
  obtain ⟨language, package⟩ := t
  cases language <;>
    · obtain ⟨drafts, drafted, same⟩ := (bind_eq_ok ..).1 made
      cases same
      exact selfContained_of_drafts mirrors regular linked consistent drafted _

/-- A declaration is written exactly when no type hint stands at its place, or at a declared place
around it. -/
theorem written_iff_uncovered (read : Schema.ofJson document = .ok schema) (rootName : String)
    (t : Target) (rendered : Rendered)
    (renders : t.render (Catalog.ofSchema schema rootName) = .ok rendered) :
    ∃ pieces, t.pieces (namedFor t.language schema rootName) = .ok pieces ∧
      t.Assembles pieces rendered.files ∧
      (∀ p ∈ pieces, p.name = (namedFor t.language schema rootName).typeName p.id) ∧
      ∀ id, (∃ p ∈ pieces, p.id = id) ↔
        ∃ place, (declaredPlaces schema rootName)[id]? = some place ∧
          Uncovered schema rootName (hintsOf t.language).type place := by
  obtain ⟨pieces, made, assembles⟩ := exists_pieces_of_render renders
  have contained := selfContained_of_pieces read made
  have regular := Schema.regular_of_ofJson read
  have linked := Catalog.linked_ofSchema schema rootName
  have mirrors := Catalog.mirrors_ofSchema regular rootName
  refine ⟨pieces, made, assembles, contained.named, fun id => (contained.written id).trans ?_⟩
  constructor
  · rintro ⟨bound, left⟩
    obtain ⟨place, found, -⟩ := mirrors.place_at (List.getElem?_eq_getElem bound)
    exact ⟨place, found, (not_suppressed_iff_uncovered mirrors regular linked found).1 left⟩
  · rintro ⟨place, found, uncovered⟩
    obtain ⟨d, declared, -⟩ := mirrors.declaration_at found
    exact ⟨Catalog.lt_size_of_declaration? declared,
      (not_suppressed_iff_uncovered mirrors regular linked found).2 uncovered⟩

end Rendering

/-- A record that Rust is to take from elsewhere, with an enumeration in it, beside another one. -/
def customRecord : Json :=
  .object [("properties", .object [
    ("custom", .object [("metadata", .object [("rustType", .string "my::Type")]),
      ("properties", .object [("inner", .object [("enum", .array [.string "a"])])])]),
    ("plain", .object [("enum", .array [.string "b"])])])]

theorem written_iff_uncovered_custom :
    ∃ schema rendered pieces, Schema.ofJson customRecord = .ok schema ∧
      Target.render ⟨.rust, ""⟩ (Catalog.ofSchema schema "root") = .ok rendered ∧
      Target.Assembles ⟨.rust, ""⟩ pieces rendered.files ∧
      pieces.map Piece.name = ["Root", "RootPlain"] ∧
      ∀ id, (∃ p ∈ pieces, p.id = id) ↔
        ∃ place, (declaredPlaces schema "root")[id]? = some place ∧
          Uncovered schema "root" "rustType" place := by
  have found : (Schema.ofJson customRecord).toOption.bind (fun schema =>
      (Target.render ⟨.rust, ""⟩ (Catalog.ofSchema schema "root")).toOption.bind fun _ =>
        (Target.pieces ⟨.rust, ""⟩ (namedFor .rust schema "root")).toOption.map
          (List.map Piece.name)) = some ["Root", "RootPlain"] := by decide +kernel
  obtain ⟨schema, read, found⟩ := Option.bind_eq_some_iff.1 found
  obtain ⟨rendered, renders, found⟩ := Option.bind_eq_some_iff.1 found
  have read := eq_ok_of_toOption read
  have renders := eq_ok_of_toOption renders
  obtain ⟨pieces, made, assembles, -, written⟩ :=
    written_iff_uncovered read "root" ⟨.rust, ""⟩ rendered renders
  rw [made] at found
  exact ⟨schema, rendered, pieces, read, renders, assembles, Option.some.inj found, written⟩

/-- A list of records that Rust is to take from elsewhere. -/
def borrowedList : Json :=
  .object [("properties", .object [("a", .object [
    ("elements", .object [("properties", .object [])]),
    ("metadata", .object [("rustType", .string "Vec<u8>")])])])]

def borrowedItem : Node := ⟨.properties [] [] false, false, .empty⟩

def borrowedItems : Node :=
  ⟨.elements borrowedItem, false, ⟨none, [], [("rustType", .string "Vec<u8>")]⟩⟩

def borrowedListSchema : Schema :=
  ⟨⟨.properties [("a", borrowedItems)] [] false, false, .empty⟩, []⟩

theorem ofJson_borrowedList : Schema.ofJson borrowedList = .ok borrowedListSchema := by
  have itemsRead (here : Pointer) : Schema.readNode [] false here (.object [
      ("elements", .object [("properties", .object [])]),
      ("metadata", .object [("rustType", .string "Vec<u8>")])]) = .ok borrowedItems :=
    (Schema.readNode_eq_ok ..).2 ⟨_, rfl, by rfl, by rfl, by rfl,
      (Schema.readForm_eq_ok _).2 (.elements (by rfl) (by rfl) (Schema.readNode_record false .nil))⟩
  exact Schema.ofJson_of_readNode rfl (by rfl)
    (Schema.readNode_record true (.cons ⟨rfl, itemsRead _⟩ .nil))

def borrowedPlace : Catalog.Place :=
  (Catalog.rootPlace borrowedListSchema "root").down (.property "a" true) borrowedItems

theorem located_borrowedList {place : Catalog.Place}
    (located : Located borrowedListSchema "root" place) :
    place = Catalog.rootPlace borrowedListSchema "root" ∨ place = borrowedPlace ∨
      place = borrowedPlace.down .element borrowedItem := by
  induction located with
  | root => exact .inl rfl
  | definition member => cases member
  | down _ leads ih =>
    rcases ih with rfl | rfl | rfl
    · cases leads with
      | required form member =>
        cases form
        cases List.mem_singleton.1 member
        exact .inr (.inl rfl)
      | optional form member =>
        cases form
        cases member
      | _ form => cases form
    · cases leads with
      | element form =>
        cases form
        exact .inr (.inr rfl)
      | _ form => cases form
    · cases leads with
      | required form member =>
        cases form
        cases member
      | optional form member =>
        cases form
        cases member
      | _ form => cases form

/-- The record is written, though nothing uses it. -/
theorem written_below_hint :
    Schema.ofJson borrowedList = .ok borrowedListSchema ∧
      (∀ place, Located borrowedListSchema "root" place → ∀ value,
        place.node.metadata.hint? "rustType" = some value → ∃ text, value = .string text) ∧
      ∃ rendered pieces,
        Target.render ⟨.rust, ""⟩ (Catalog.ofSchema borrowedListSchema "root") = .ok rendered ∧
        Target.pieces ⟨.rust, ""⟩ (namedFor .rust borrowedListSchema "root") = .ok pieces ∧
        Target.Assembles ⟨.rust, ""⟩ pieces rendered.files ∧
        ¬ ∀ id place, (declaredPlaces borrowedListSchema "root")[id]? = some place →
          ((∃ p ∈ pieces, p.id = id) ↔ ∀ outer, Located borrowedListSchema "root" outer →
            Encloses outer place → outer.node.metadata.hint? "rustType" = none) := by
  have renderable : (Target.render ⟨.rust, ""⟩
      (Catalog.ofSchema borrowedListSchema "root")).isOk = true := by decide +kernel
  obtain ⟨rendered, renders⟩ := exists_of_isOk renderable
  obtain ⟨pieces, made, assembles⟩ := exists_pieces_of_render renders
  refine ⟨ofJson_borrowedList, ?_, rendered, pieces, renders, made, assembles, fun all => ?_⟩
  · intro place located value hint
    rcases located_borrowedList located with rfl | rfl | rfl
    · cases hint
    · exact ⟨"Vec<u8>", (Option.some.inj hint).symm⟩
    · cases hint
  · have outside : Located borrowedListSchema "root" borrowedPlace :=
      .down .root (.required rfl List.mem_cons_self)
    have inside := Located.down outside (.element rfl)
    obtain ⟨id, found⟩ := Catalog.exists_getElem?_of_isDeclared inside rfl
    have uncovered : Uncovered borrowedListSchema "root" "rustType"
        (borrowedPlace.down .element borrowedItem) := by
      intro outer located _ declared
      rcases located_borrowedList located with rfl | rfl | rfl
      · rfl
      · cases declared
      · rfl
    have regular := Schema.regular_of_ofJson ofJson_borrowedList
    have linked := Catalog.linked_ofSchema borrowedListSchema "root"
    have mirrors := Catalog.mirrors_ofSchema regular "root"
    obtain ⟨d, known, -⟩ := mirrors.declaration_at found
    have written := ((selfContained_of_pieces ofJson_borrowedList made).written id).2
      ⟨Catalog.lt_size_of_declaration? known,
        (not_suppressed_iff_uncovered mirrors regular linked found).2 uncovered⟩
    have free := (all id _ found).1 written borrowedPlace outside (.down .here (.element rfl))
    cases free

end SchemaBindings.Binding
