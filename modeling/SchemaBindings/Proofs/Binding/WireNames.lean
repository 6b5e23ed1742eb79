import SchemaBindings.Proofs.Binding.Recalling

/-! The names and values of JSON in the output of a target. Each declaration tells those of the node
that it stands for, in their order and each once, and nothing else. -/

namespace SchemaBindings.Binding

open Catalog (declaredPlaces)
open Naming (Capital)

/-- The files of a target are made of pieces, and of lines that are about no declaration. -/
def Target.Prints (t : Target) (pieces : List Piece) (files : List File) : Prop :=
  match t.language with
  | .java => ∃ (classes : List File) (helpers : List JavaClasses.Unsigned),
    List.Forall₂ (fun piece file => ∃ imports,
      file = JavaClasses.file t.package piece.name imports piece.lines) pieces classes ∧
    files = classes ++ helpers.map (fun u => JavaClasses.file t.package u.className
      JavaClasses.helperImports (JavaClasses.helperLines u))
  | .rust => files =
    [⟨"mod.rs", Text.unlines (["//! " ++ notice, ""] ++ pieces.flatMap Piece.lines)⟩]
  | .go => ∃ packages, files = [⟨t.package ++ ".go",
    Text.unlines (["// " ++ notice, "", "package " ++ t.package] ++
      GoPackage.importLines packages ++ pieces.flatMap Piece.lines)⟩]
  | .typescript => files =
    [⟨"index.ts", Text.unlines (("// " ++ notice) :: pieces.flatMap Piece.lines)⟩]

/-- A figure is a circle, which may have one of two colors for its line. -/
def figure : Json :=
  .object [
    ("discriminator", .string "kind"),
    ("mapping", .object [("circle", .object [
      ("properties", .object [("radius", .object [("type", .string "float64")])]),
      ("optionalProperties", .object [
        ("line color", .object [("enum", .array [.string "red", .string "dark blue"])])])])])]

def circleNode : Node :=
  ⟨.properties [("radius", ⟨.type .float64, false, .empty⟩)]
    [("line color", ⟨.enum ["red", "dark blue"], false, .empty⟩)] false, false, .empty⟩

def figureSchema : Schema :=
  ⟨⟨.discriminator "kind" [("circle", circleNode)], false, .empty⟩, []⟩

theorem ofJson_figure : Schema.ofJson figure = .ok figureSchema := by
  have colorRead (here : Pointer) : Schema.readNode [] false here
      (.object [("enum", .array [.string "red", .string "dark blue"])]) =
        .ok ⟨.enum ["red", "dark blue"], false, .empty⟩ :=
    (Schema.readNode_eq_ok ..).2 ⟨_, rfl, by rfl, by rfl, by rfl,
      (Schema.readForm_eq_ok _).2 (.enum (by decide) (by rfl) (by decide) (by decide))⟩
  have circleRead (here : Pointer) : Schema.readNode [] false here (.object [
      ("properties", .object [("radius", .object [("type", .string "float64")])]),
      ("optionalProperties", .object [
        ("line color", .object [("enum", .array [.string "red", .string "dark blue"])])])]) =
        .ok circleNode := by
    refine (Schema.readNode_eq_ok ..).2 ⟨_, rfl, by rfl, by rfl, by rfl,
      (Schema.readForm_eq_ok _).2 (.properties (by decide) (by decide) ?_ ?_ (by decide) (by rfl))⟩
    · exact (Schema.readNodes_eq_ok ..).2 (.inr ⟨_, _, rfl, rfl,
        (Schema.readEntries_eq_ok ..).2 (.cons ⟨rfl, Schema.readNode_primitive [] _ .float64, rfl⟩ .nil)⟩)
    · exact (Schema.readNodes_eq_ok ..).2 (.inr ⟨_, _, rfl, rfl,
        (Schema.readEntries_eq_ok ..).2 (.cons ⟨rfl, colorRead _, rfl⟩ .nil)⟩)
  have rootRead : Schema.readNode [] true .root figure = .ok figureSchema.root :=
    (Schema.readNode_eq_ok ..).2 ⟨_, rfl, by rfl, by rfl, by rfl,
      (Schema.readForm_eq_ok _).2 (.discriminator (by decide) (by rfl) (by rfl) (by rfl) (by decide)
        ((Schema.readEntries_eq_ok ..).2 (.cons ⟨rfl, circleRead _, by rfl⟩ .nil)))⟩
  exact Schema.ofJson_of_readNode rfl (by rfl) rootRead

theorem extensions_figure {node : Node} (within : Schema.Contains figureSchema node) :
    node.metadata.extensions = [] := by
  have listed : node = figureSchema.root ∨ node = circleNode ∨
      node = ⟨.type .float64, false, .empty⟩ ∨
      node = ⟨.enum ["red", "dark blue"], false, .empty⟩ := by
    induction within with
    | root => exact .inl rfl
    | definition member => cases member
    | child _ below ih =>
      rcases ih with rfl | rfl | rfl | rfl
      · cases below with
        | variant form member =>
          cases form
          cases List.mem_singleton.1 member
          exact .inr (.inl rfl)
        | _ form => cases form
      · cases below with
        | required form member =>
          cases form
          cases List.mem_singleton.1 member
          exact .inr (.inr (.inl rfl))
        | optional form member =>
          cases form
          cases List.mem_singleton.1 member
          exact .inr (.inr (.inr rfl))
        | _ form => cases form
      · cases below with
        | _ form => cases form
      · cases below with
        | _ form => cases form
  rcases listed with rfl | rfl | rfl | rfl <;> rfl

end SchemaBindings.Binding

