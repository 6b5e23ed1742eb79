import SchemaBindings.Proofs.Binding.ReachedTypes

/-! The packages that a Go file imports are those that its declarations use: `time` for a timestamp
that no text stands for, and two more where a union is written with its methods. -/

namespace SchemaBindings.Binding.GoPackage

open Catalog (Suppressed)

section Bodies

variable {c : NamedCatalog} {declaration : Declaration} {d : Draft (Option TagField) String}

theorem usesTime_eq (body : Body String) :
    usesTime body = body.types.any (·.usesPrimitive .timestamp) := by
  cases body with
  | record fields => exact List.any_map.symm
  | variant _ _ fields => exact List.any_map.symm
  | wrapper inner => exact (Bool.or_false _).symm
  | _ => rfl

theorem usesTime_iff (written : WrittenAs rules c declaration d) :
    usesTime d.body = true ↔
      declaration.Reaches "goType" fun level => level.kind = .primitive .timestamp := by
  rw [usesTime_eq]
  exact any_types_iff (fun _ _ read => usesPrimitive_iff .timestamp read) written

theorem isUnion_body_iff (written : WrittenAs rules c declaration d) :
    isUnion d.body = true ↔ declaration.shape.IsUnion := by
  rw [isUnion_iff written]
  cases d.body with
  | union tag cases => exact iff_of_true rfl ⟨tag, cases, rfl⟩
  | _ => exact iff_of_false Bool.false_ne_true fun ⟨_, _, union⟩ => by cases union

end Bodies

section Imports

variable {drafts : List (Draft (Option TagField) String)}

theorem mem_imports {path : String} :
    path ∈ imports drafts ↔
      path = "time" ∧ drafts.any (fun d => usesTime d.body) = true ∨
        (path = "encoding/json" ∨ path = "fmt") ∧ drafts.any (fun d => isUnion d.body) = true := by
  rw [imports, List.mem_append]
  cases drafts.any (fun d => usesTime d.body) <;> cases drafts.any (fun d => isUnion d.body) <;>
    simp [or_comm]

theorem increasing_imports : (imports drafts).Pairwise (· < ·) := by
  rw [imports]
  cases drafts.any (fun d => usesTime d.body) <;> cases drafts.any (fun d => isUnion d.body) <;>
    decide

end Imports

section Rendering

variable {document : Json} {schema : Schema} {rootName package : String} {rendered : Rendered}

/-- Of every schema that is rendered for Go, the one file imports the packages that its declarations
use and no others, each once and in order. Without any, nothing is written for imports. -/
theorem imports_render (read : Schema.ofJson document = .ok schema)
    (renders : Target.render ⟨.go, package⟩ (Catalog.ofSchema schema rootName) = .ok rendered) :
    ∃ paths items, rendered.files = [⟨package ++ ".go", Text.unlines
        (["// " ++ notice, "", "package " ++ package] ++
          (if paths = [] then []
            else ["", "import ("] ++ paths.map (fun path => "\t\"" ++ path ++ "\"") ++ [")"]) ++
          items)⟩] ∧
      (∃ drafts, rules.drafts (namedFor .go schema rootName) = .ok drafts ∧
        paths = imports drafts ∧ items = drafts.flatMap
          (fun d => "" :: itemLines (holdings (Catalog.ofSchema schema rootName)) d)) ∧
      paths.Pairwise (· < ·) ∧
      ∀ path, path ∈ paths ↔
        path = "time" ∧ (∃ d ∈ (Catalog.ofSchema schema rootName).declarations,
          ¬ Suppressed "goType" (Catalog.ofSchema schema rootName) d.id ∧
            d.Reaches "goType" fun level => level.kind = .primitive .timestamp) ∨
        (path = "encoding/json" ∨ path = "fmt") ∧
          ∃ d ∈ (Catalog.ofSchema schema rootName).declarations,
            ¬ Suppressed "goType" (Catalog.ofSchema schema rootName) d.id ∧ d.shape.IsUnion := by
  have linked := Catalog.linked_ofSchema schema rootName
  have mirrors := Catalog.mirrors_ofSchema (Schema.regular_of_ofJson read) rootName
  obtain ⟨drafts, drafted, files⟩ := exists_drafts_of_render renders
  obtain ⟨emitted, all, each⟩ := exists_emitted_of_drafts mirrors linked drafted
  refine ⟨imports drafts, _, ?_, ⟨drafts, drafted, rfl, rfl⟩, increasing_imports, fun path => ?_⟩
  · rw [files, importLines]
    simp only [List.isEmpty_iff]
  · rw [mem_imports, any_iff_of_forall₂ each fun _ _ written => usesTime_iff written,
      any_iff_of_forall₂ each fun _ _ written => isUnion_body_iff written, all.exists_iff,
      all.exists_iff]
    rfl

/-- A union with times in a list, and a time that a text stands for. -/
def timedEvents : Json :=
  .object [
    ("definitions", .object [("event", .object [
      ("discriminator", .string "kind"),
      ("mapping", .object [("made", .object [("properties", .object [
        ("at", .object [("elements", .object [("type", .string "timestamp")])])])])])])]),
    ("metadata", .object [("goType", .string "Start")]),
    ("type", .string "timestamp")]

theorem imports_timedEvents :
    ∃ schema rendered paths items, Schema.ofJson timedEvents = .ok schema ∧
      Target.render ⟨.go, "p"⟩ (Catalog.ofSchema schema "root") = .ok rendered ∧
      rendered.files = [⟨"p" ++ ".go", Text.unlines
        (["// " ++ notice, "", "package " ++ "p"] ++
          (if paths = [] then []
            else ["", "import ("] ++ paths.map (fun path => "\t\"" ++ path ++ "\"") ++ [")"]) ++
          items)⟩] ∧
      paths = ["encoding/json", "fmt", "time"] ∧
      ∀ path, path ∈ paths ↔
        path = "time" ∧ (∃ d ∈ (Catalog.ofSchema schema "root").declarations,
          ¬ Suppressed "goType" (Catalog.ofSchema schema "root") d.id ∧
            d.Reaches "goType" fun level => level.kind = .primitive .timestamp) ∨
        (path = "encoding/json" ∨ path = "fmt") ∧
          ∃ d ∈ (Catalog.ofSchema schema "root").declarations,
            ¬ Suppressed "goType" (Catalog.ofSchema schema "root") d.id ∧ d.shape.IsUnion := by
  have found : (Schema.ofJson timedEvents).toOption.map (fun schema =>
      ((Target.render ⟨.go, "p"⟩ (Catalog.ofSchema schema "root")).isOk,
        (rules.drafts (namedFor .go schema "root")).toOption.map imports)) =
      some (true, some ["encoding/json", "fmt", "time"]) := by
    decide +kernel
  obtain ⟨schema, read, found⟩ := Option.map_eq_some_iff.1 found
  obtain ⟨succeeds, imported⟩ := Prod.mk.inj found
  have read := eq_ok_of_toOption read
  obtain ⟨rendered, renders⟩ := exists_of_isOk succeeds
  obtain ⟨paths, items, files, ⟨drafts, drafted, same, -⟩, -, listed⟩ := imports_render read renders
  rw [drafted] at imported
  exact ⟨schema, rendered, paths, items, read, renders, files,
    same.trans (Option.some.inj imported), listed⟩

end Rendering

end SchemaBindings.Binding.GoPackage
