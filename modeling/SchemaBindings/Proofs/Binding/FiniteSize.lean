import SchemaBindings.Binding.Target
import SchemaBindings.Proofs.Binding.GoTypes
import SchemaBindings.Proofs.Binding.RustItems
import SchemaBindings.Proofs.Schema.Success

/-! The types that are written for Rust and Go have a finite size: following what each declaration
mentions by value never leads back to it. The texts of hints are the one exception, they are copied
from the schema as they are. -/

namespace SchemaBindings.Binding

open Relation (TransGen)

/-- The catalog of a schema with the names of one language. -/
def namedFor (language : Language) (schema : Schema) (rootName : String) : NamedCatalog :=
  .ofCatalog (naming language) (Catalog.ofSchema schema rootName)

theorem files_of_render {t : Target} {catalog : Catalog} {rendered : Rendered}
    (renders : t.render catalog = .ok rendered) :
    t.files (.ofCatalog (naming t.language) catalog) = .ok rendered.files := by
  obtain ⟨files, read, same⟩ := (bind_eq_ok ..).1 renders
  cases same
  exact read

/-- Whatever is rendered, no declaration is part of itself by value. -/
theorem acyclic_render (schema : Schema) (rootName package : String) (rendered : Rendered) :
    (Target.render ⟨.rust, package⟩ (Catalog.ofSchema schema rootName) = .ok rendered →
      ∃ items, RustModule.moduleItems (namedFor .rust schema rootName) = .ok items ∧
        rendered.files = [RustModule.moduleFile items] ∧
        ∀ i, ¬ TransGen (RustModule.Mentions false items) i i) ∧
    (Target.render ⟨.go, package⟩ (Catalog.ofSchema schema rootName) = .ok rendered →
      ∃ head decls, GoPackage.headLines package (namedFor .go schema rootName) = .ok head ∧
        GoPackage.packageDecls (namedFor .go schema rootName) = .ok decls ∧
        rendered.files = [GoPackage.packageFile package head decls] ∧
        ∀ t, ¬ TransGen (GoPackage.Mentions false decls) t t) := by
  have linked := Catalog.linked_ofSchema schema rootName
  constructor
  · intro renders
    obtain ⟨items, made, printed⟩ :=
      (RustModule.files_eq_ok (namedFor .rust schema rootName) _).1 (files_of_render renders)
    exact ⟨items, made, printed, RustModule.acyclic_mentions linked rfl
      (Naming.distinct_of_linked RustModule.naming linked) made⟩
  · intro renders
    obtain ⟨head, decls, headed, made, printed⟩ :=
      (GoPackage.files_eq_ok package (namedFor .go schema rootName) _).1 (files_of_render renders)
    exact ⟨head, decls, headed, made, printed, GoPackage.acyclic_mentions linked rfl
      (Naming.distinct_of_linked GoPackage.naming linked) made⟩

/-- A list: the root refers to a definition that refers to itself. -/
def linkedList : Schema :=
  ⟨⟨.ref "node", false, .empty⟩,
    [("node", ⟨.properties [("next", ⟨.ref "node", false, .empty⟩)] [] false, false, .empty⟩)]⟩

def linkedListCatalog : Catalog where
  declarations :=
    [⟨0, ["root"], .wrapper ⟨.declared 1, false, .empty, .root⟩, .empty, false, none, .root⟩,
     ⟨1, ["node"], .record [⟨"next", ⟨.declared 1, false, .empty,
        Pointer.root.descend ["definitions", "node", "properties", "next"]⟩, true⟩] false, .empty,
      false, none, Pointer.root.descend ["definitions", "node"]⟩]
  named := [("node", 1)]

theorem ofSchema_linkedList : Catalog.ofSchema linkedList "root" = linkedListCatalog := by
  simp [Catalog.ofSchema, linkedList, linkedListCatalog, Catalog.topLevels, Catalog.topLevel,
    Catalog.shapeOf?, Catalog.useOf, Catalog.membersOf, Catalog.merge, Catalog.definitionId?,
    Catalog.targetNullable, Catalog.Property.keyword, Node.form, Node.metadata, Node.nullable,
    Node.isNameable, Pointer.descend, Keyed.keys]

theorem renders_linkedList :
    (∃ rendered, Target.render ⟨.rust, ""⟩ (Catalog.ofSchema linkedList "root") = .ok rendered) ∧
      ∃ rendered, Target.render ⟨.go, "p"⟩ (Catalog.ofSchema linkedList "root") = .ok rendered := by
  rw [ofSchema_linkedList]
  exact ⟨exists_of_isOk (by decide +kernel), exists_of_isOk (by decide +kernel)⟩

theorem acyclic_render_linkedList :
    (∃ rendered items,
      Target.render ⟨.rust, ""⟩ (Catalog.ofSchema linkedList "root") = .ok rendered ∧
        rendered.files = [RustModule.moduleFile items] ∧
        ∀ i, ¬ TransGen (RustModule.Mentions false items) i i) ∧
    ∃ rendered head decls,
      Target.render ⟨.go, "p"⟩ (Catalog.ofSchema linkedList "root") = .ok rendered ∧
        rendered.files = [GoPackage.packageFile "p" head decls] ∧
        ∀ t, ¬ TransGen (GoPackage.Mentions false decls) t t := by
  obtain ⟨⟨rust, rustRenders⟩, go, goRenders⟩ := renders_linkedList
  obtain ⟨items, -, rustPrinted, rustAcyclic⟩ :=
    (acyclic_render linkedList "root" "" rust).1 rustRenders
  obtain ⟨head, decls, -, -, goPrinted, goAcyclic⟩ :=
    (acyclic_render linkedList "root" "p" go).2 goRenders
  exact ⟨⟨rust, items, rustRenders, rustPrinted, rustAcyclic⟩,
    go, head, decls, goRenders, goPrinted, goAcyclic⟩

/-- A property that is hinted to be of the type it stands in. -/
def selfHinted : Json :=
  .object [("properties", .object [("a", .object [("metadata", .object
    [("rustType", .string "Root")])])])]

def selfHintedSchema : Schema :=
  ⟨⟨.properties [("a", ⟨.empty, false, ⟨none, [], [("rustType", .string "Root")]⟩⟩)] [] false,
    false, .empty⟩, []⟩

theorem ofJson_selfHinted : Schema.ofJson selfHinted = .ok selfHintedSchema := by
  have hinted (here : Pointer) : Schema.readNode [] false here (.object [("metadata", .object
      [("rustType", .string "Root")])]) =
      .ok ⟨.empty, false, ⟨none, [], [("rustType", .string "Root")]⟩⟩ :=
    (Schema.readNode_eq_ok ..).2 ⟨_, rfl, by rfl, by rfl, by rfl,
      (Schema.readForm_eq_ok _).2 (.empty (by decide))⟩
  have rootRead : Schema.readNode [] true .root selfHinted = .ok selfHintedSchema.root :=
    Schema.readNode_record true (.cons ⟨rfl, hinted _⟩ .nil)
  exact Schema.ofJson_of_readNode rfl (by rfl) rootRead

def selfHintedCatalog : Catalog where
  declarations :=
    [⟨0, ["root"], .record [⟨"a", ⟨.anything, false, ⟨none, [], [("rustType", .string "Root")]⟩,
        Pointer.root.descend ["properties", "a"]⟩, true⟩] false, .empty, false, none, .root⟩]
  named := []

theorem ofSchema_selfHinted : Catalog.ofSchema selfHintedSchema "root" = selfHintedCatalog := by
  simp [Catalog.ofSchema, selfHintedSchema, selfHintedCatalog, Catalog.topLevels, Catalog.topLevel,
    Catalog.shapeOf?, Catalog.useOf, Catalog.membersOf, Catalog.merge, Catalog.Property.keyword,
    Node.form, Node.metadata, Node.nullable, Pointer.descend, Keyed.keys]

/-- With the texts of hints, a type can be part of itself: this one is written as it is hinted. -/
theorem cycle_through_hint :
    Schema.ofJson selfHinted = .ok selfHintedSchema ∧
      ∃ rendered items i,
        Target.render ⟨.rust, ""⟩ (Catalog.ofSchema selfHintedSchema "root") = .ok rendered ∧
        RustModule.moduleItems (namedFor .rust selfHintedSchema "root") = .ok items ∧
        rendered.files = [RustModule.moduleFile items] ∧
        TransGen (RustModule.Mentions true items) i i := by
  have renders :
      ∃ r, Target.render ⟨.rust, ""⟩ (Catalog.ofSchema selfHintedSchema "root") = .ok r := by
    rw [ofSchema_selfHinted]
    exact exists_of_isOk (by decide +kernel)
  obtain ⟨rendered, renders⟩ := renders
  obtain ⟨items, made, printed⟩ :=
    (RustModule.files_eq_ok (namedFor .rust selfHintedSchema "root") _).1 (files_of_render renders)
  have mentioned : (RustModule.moduleItems (namedFor .rust selfHintedSchema "root")).toOption.any
      (fun items => items.any fun i => (i.byValue true).contains i.name) = true := by
    rw [namedFor, ofSchema_selfHinted]
    decide +kernel
  rw [made] at mentioned
  obtain ⟨i, inside, mentioned⟩ := List.any_eq_true.1 mentioned
  exact ⟨ofJson_selfHinted, rendered, items, i, renders, made, printed,
    .single ⟨inside, inside, List.contains_iff_mem.1 mentioned⟩⟩

end SchemaBindings.Binding
