import SchemaBindings.Proofs.Binding.MapMetadata
import SchemaBindings.Proofs.Schema.KeyOrder

/-! Two texts that differ only in the order in which the members of objects are written are rendered
alike. Both have the output of the canonical document, as no language looks into the values that
metadata keeps, unless they are texts. -/

namespace SchemaBindings.Binding

/-- A text is canonical, and no other value becomes a text. -/
theorem hintText?_canonical (value : Json) : hintText? value.canonical = hintText? value := by
  cases value <;> simp [Json.canonical, hintText?]

theorem keeps_canonical (owned : List String) : Keeps owned id Metadata.canonical where
  described _ := rfl
  enumDescribed _ _ := rfl
  hint m key _ := by
    simp only [Metadata.hint?, Metadata.canonical, Keyed.lookup_mapValues, Option.map_map]
    exact congrArg (Option.map · _) (funext hintText?_canonical)

/-- Everything that is rendered for a document. -/
def renderDocument (document : Json) (rootName : String) (targets : List Target) :
    Except Fault (List (Except Unsupported Rendered)) :=
  (fun schema => targets.map (·.render (Catalog.ofSchema schema rootName))) <$>
    Schema.ofJson document

theorem render_eq_renderDocument {text : String} {document : Json}
    (decoded : Json.ofText? text = some document) (rootName : String) (targets : List Target) :
    render text rootName targets = renderDocument document rootName targets := by
  simp only [render, Schema.ofText, decoded]
  rfl

theorem renderDocument_canonical (document : Json) (rootName : String) (targets : List Target) :
    renderDocument document.canonical rootName targets =
      renderDocument document rootName targets := by
  rw [renderDocument, Schema.ofJson_canonical, renderDocument]
  cases read : Schema.ofJson document with
  | error fault => rfl
  | ok schema =>
    -- The catalogs of the two schemas differ in metadata alone, and no language sees how.
    have mirrors := Catalog.mirrors_ofSchema (Schema.regular_of_ofJson read) rootName
    have same (t : Target) :
        t.render (Catalog.ofSchema (schema.mapMetadata Metadata.canonical) rootName) =
          t.render (Catalog.ofSchema schema rootName) := by
      rw [Catalog.ofSchema_mapMetadata]
      exact Target.render_mapMetadata (keeps_canonical _) fun _ inside => mirrors.describedBy inside
    exact congrArg Except.ok (List.map_congr_left fun t _ => same t)

/-- The order in which the members of objects are written changes neither the fault of a document
nor the output of any target, be it files or what the language cannot render. -/
theorem render_eq_of_reordered {text other : String} {document moved : Json}
    (decoded : Json.ofText? text = some document) (decodedOther : Json.ofText? other = some moved)
    (same : document.Reordered moved) (rootName : String) (targets : List Target) :
    render text rootName targets = render other rootName targets :=
  calc render text rootName targets
    _ = renderDocument document rootName targets := render_eq_renderDocument decoded ..
    _ = renderDocument document.canonical rootName targets := (renderDocument_canonical ..).symm
    _ = renderDocument moved.canonical rootName targets := by rw [same.canonical_eq]
    _ = renderDocument moved rootName targets := renderDocument_canonical ..
    _ = render other rootName targets := (render_eq_renderDocument decodedOther ..).symm

/-- A point with a note in its metadata. -/
def pointText : String :=
  "\x7b\"metadata\":\x7b\"note\":\x7b\"old\":true,\"by\":\"me\"\x7d\x7d," ++
  "\"properties\":\x7b\"y\":\x7b\"type\":\"int8\"\x7d,\"x\":\x7b\"type\":\"int8\"\x7d\x7d\x7d"

/-- The same with its members in another order. -/
def movedPointText : String :=
  "\x7b\"properties\":\x7b\"x\":\x7b\"type\":\"int8\"\x7d,\"y\":\x7b\"type\":\"int8\"\x7d\x7d," ++
  "\"metadata\":\x7b\"note\":\x7b\"by\":\"me\",\"old\":true\x7d\x7d\x7d"

theorem render_pointText :
    ∃ document moved, Json.ofText? pointText = some document ∧
      Json.ofText? movedPointText = some moved ∧ document.Reordered moved ∧
      render pointText "point" [⟨.go, "plane"⟩, ⟨.rust, ""⟩] =
        render movedPointText "point" [⟨.go, "plane"⟩, ⟨.rust, ""⟩] := by
  let coordinate : Json := .object [("type", .string "int8")]
  let note : Json := .object [("old", .bool true), ("by", .string "me")]
  let movedNote : Json := .object [("by", .string "me"), ("old", .bool true)]
  have decoded : Json.ofText? pointText = some (.object [
      ("metadata", .object [("note", note)]),
      ("properties", .object [("y", coordinate), ("x", coordinate)])]) := by cbv
  have decodedMoved : Json.ofText? movedPointText = some (.object [
      ("properties", .object [("x", coordinate), ("y", coordinate)]),
      ("metadata", .object [("note", movedNote)])]) := by cbv
  have sameCoordinate : coordinate.Reordered coordinate :=
    .object (by decide) (.cons (.string _) .nil) (.refl _)
  have sameNote : note.Reordered movedNote :=
    .object (by decide) (.cons (.bool _) (.cons (.string _) .nil)) (.swap ..)
  have properties : Json.Reordered (.object [("y", coordinate), ("x", coordinate)])
      (.object [("x", coordinate), ("y", coordinate)]) :=
    .object (by decide) (.cons sameCoordinate (.cons sameCoordinate .nil)) (.swap ..)
  have metadata : Json.Reordered (.object [("note", note)]) (.object [("note", movedNote)]) :=
    .object (by decide) (.cons sameNote .nil) (.refl _)
  have same : Json.Reordered
      (.object [("metadata", .object [("note", note)]),
        ("properties", .object [("y", coordinate), ("x", coordinate)])])
      (.object [("properties", .object [("x", coordinate), ("y", coordinate)]),
        ("metadata", .object [("note", movedNote)])]) :=
    .object (by decide) (.cons metadata (.cons properties .nil)) (.swap ..)
  exact ⟨_, _, decoded, decodedMoved, same,
    render_eq_of_reordered decoded decodedMoved same "point" _⟩

end SchemaBindings.Binding
