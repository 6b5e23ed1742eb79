import SchemaBindings.Proofs.Binding.Drafts
import SchemaBindings.Proofs.Binding.FiniteSize
import SchemaBindings.Proofs.Naming.Legal
import SchemaBindings.Proofs.Output.Places

/-! The names of the files that a target is written to. No two are alike. Each is an identifier with
an ending, so that all of them stand side by side; but in Go it is the package, which may have
slashes, in place of an identifier. -/

namespace SchemaBindings.Binding

open Naming (IsIdentifier Names)
open Output.Path (IsPlain)

namespace JavaClasses

variable {package : String} {catalog : Catalog} {files : List File}

/-- A class and its file have one name. -/
theorem exists_names_of_files (linked : catalog.Linked)
    (rendered : JavaClasses.files package (.ofCatalog naming catalog) = .ok files) :
    ∃ names : List String, files.map File.name = names.map (· ++ ".java") ∧ names.Nodup ∧
      ∀ name ∈ names, IsIdentifier name := by
  obtain ⟨drafts, drafted, same⟩ := (bind_eq_ok ..).1 rendered
  have declared := sublist_map_name_drafts drafted
  have helpers : (unsignedIn drafts).Sublist Unsigned.all := List.filter_sublist
  have distinct := Naming.distinct_of_linked naming linked
  refine ⟨drafts.map Draft.name ++ (unsignedIn drafts).map Unsigned.className, ?_,
    List.nodup_append.2 ⟨declared.nodup distinct.types, ?_, ?_⟩, ?_⟩
  · rw [← (pure_eq_ok ..).1 same]
    simp [Function.comp_def, draftFile, file]
  · exact (helpers.map Unsigned.className).nodup (by decide)
  · -- No declaration is called like one of the helpers.
    rintro name drawn _ helper rfl
    obtain ⟨n, member, rfl⟩ := List.mem_map.1 (declared.subset drawn)
    obtain ⟨u, -, same⟩ := List.mem_map.1 helper
    refine distinct.unreserved n member (same ▸ ?_)
    cases u <;> decide
  · intro name member
    rcases List.mem_append.1 member with drawn | helper
    · obtain ⟨n, listed, rfl⟩ := List.mem_map.1 (declared.subset drawn)
      have legal := Naming.each_resolve (Naming.regular_naming .java).ensures catalog n listed
      exact legal.type.identifier
    · obtain ⟨u, -, rfl⟩ := List.mem_map.1 helper
      cases u <;> decide

end JavaClasses

/-- How the names of a language's files end. -/
def ending : Language → String
  | .java => ".java"
  | .rust => ".rs"
  | .go => ".go"
  | .typescript => ".ts"

/-- A file is named by an ending behind an identifier, or in Go behind the package. -/
theorem exists_stems_of_render {t : Target} {catalog : Catalog} (linked : catalog.Linked)
    {rendered : Rendered} (renders : t.render catalog = .ok rendered) :
    ∃ stems : List String, rendered.files.map File.name = stems.map (· ++ ending t.language) ∧
      stems.Nodup ∧
      (t.language = .go ∧ stems = [t.package] ∨
        t.language ≠ .go ∧ ∀ stem ∈ stems, IsIdentifier stem) := by
  have files := files_of_render renders
  obtain ⟨language, package⟩ := t
  cases language with
  | java =>
    obtain ⟨names, same, distinct, identifiers⟩ := JavaClasses.exists_names_of_files linked files
    exact ⟨names, same, distinct, .inr ⟨nofun, identifiers⟩⟩
  | rust =>
    obtain ⟨items, -, same⟩ := (bind_eq_ok ..).1 files
    refine ⟨["mod"], ?_, List.nodup_singleton _, .inr ⟨nofun, by decide⟩⟩
    rw [← (pure_eq_ok ..).1 same]
    rfl
  | go =>
    obtain ⟨drafts, -, same⟩ := (bind_eq_ok ..).1 files
    refine ⟨[package], ?_, List.nodup_singleton _, .inl ⟨rfl, rfl⟩⟩
    rw [← (pure_eq_ok ..).1 same]
    rfl
  | typescript =>
    obtain ⟨drafts, -, same⟩ := (bind_eq_ok ..).1 files
    refine ⟨["index"], ?_, List.nodup_singleton _, .inr ⟨nofun, by decide⟩⟩
    rw [← (pure_eq_ok ..).1 same]
    rfl

theorem slash_not_mem_of_isIdentifier {name : String} (identifier : IsIdentifier name) :
    '/' ∉ name.toList := identifier.not_mem (by decide)

/-- With an ending behind it, a text is a plain name unless it has a slash. -/
theorem isPlain_append_ending_iff (stem : String) (language : Language) :
    IsPlain (stem ++ ending language) ↔ '/' ∉ stem.toList := by
  have text : (stem ++ ending language).toList = stem.toList ++ (ending language).toList :=
    String.toList_append
  have long : 2 < (stem ++ ending language).toList.length := by
    have ends : 2 < (ending language).toList.length := by cases language <;> decide
    rw [text, List.length_append]
    omega
  have other {special : String} (short : special.toList.length ≤ 2) :
      stem ++ ending language ≠ special := by
    rintro rfl
    omega
  constructor
  · intro plain member
    exact plain.noSlash (text ▸ List.mem_append_left _ member)
  · intro free
    have behind : '/' ∉ (ending language).toList := by cases language <;> decide
    refine ⟨other (by decide), ?_, other (by decide), other (by decide)⟩
    rw [text]
    exact fun member => (List.mem_append.1 member).elim free behind

theorem nodup_names_of_render {t : Target} {catalog : Catalog} (linked : catalog.Linked)
    {rendered : Rendered} (renders : t.render catalog = .ok rendered) :
    (rendered.files.map File.name).Nodup := by
  obtain ⟨stems, names, distinct, -⟩ := exists_stems_of_render linked renders
  rw [names]
  exact distinct.map fun a b equal => (String.append_left_inj (ending t.language)).1 equal

/-- Only a Go package with a slash gives a name that is not plain. -/
theorem isPlain_of_render {t : Target} {catalog : Catalog} (linked : catalog.Linked)
    {rendered : Rendered} (renders : t.render catalog = .ok rendered)
    (package : t.language = .go → '/' ∉ t.package.toList) :
    ∀ f ∈ rendered.files, IsPlain f.name := by
  obtain ⟨stems, names, -, kinds⟩ := exists_stems_of_render linked renders
  intro f member
  have named : f.name ∈ stems.map (· ++ ending t.language) := names ▸ List.mem_map_of_mem member
  obtain ⟨stem, listed, same⟩ := List.mem_map.1 named
  rw [← same]
  refine (isPlain_append_ending_iff stem t.language).2 ?_
  rcases kinds with ⟨go, rfl⟩ | ⟨-, identifiers⟩
  · exact List.mem_singleton.1 listed ▸ package go
  · exact slash_not_mem_of_isIdentifier (identifiers stem listed)

/-- A target has one file, or files with plain names, no two of them alike. -/
theorem files_apart {t : Target} {catalog : Catalog} (linked : catalog.Linked)
    {rendered : Rendered} (renders : t.render catalog = .ok rendered) :
    (∃ f, rendered.files = [f]) ∨
      (rendered.files.map File.name).Nodup ∧ ∀ f ∈ rendered.files, IsPlain f.name := by
  obtain ⟨stems, names, -, kinds⟩ := exists_stems_of_render linked renders
  rcases kinds with ⟨-, rfl⟩ | ⟨other, -⟩
  · obtain ⟨f, single, -⟩ := List.map_eq_singleton_iff.1 names
    exact .inl ⟨f, single⟩
  · exact .inr ⟨nodup_names_of_render linked renders,
      isPlain_of_render linked renders fun go => absurd go other⟩

/-- No two files of a target have one name. All of them lie directly in whatever directory they are
written to, except for a Go package with a slash. -/
theorem isPlain_files_iff (t : Target) (schema : Schema) (rootName : String) {rendered : Rendered}
    (renders : t.render (Catalog.ofSchema schema rootName) = .ok rendered) :
    (rendered.files.map File.name).Nodup ∧
      ((∀ f ∈ rendered.files, IsPlain f.name) ↔ (t.language = .go → '/' ∉ t.package.toList)) ∧
      ∀ f ∈ rendered.files, IsPlain f.name → ∀ directory,
        Output.Path.file? (Output.Path.join directory f.name) =
          some (Output.Path.steps (Output.Path.segments directory), f.name) := by
  have linked := Catalog.linked_ofSchema schema rootName
  obtain ⟨stems, names, -, kinds⟩ := exists_stems_of_render linked renders
  refine ⟨nodup_names_of_render linked renders,
    ⟨fun plain go => ?_, isPlain_of_render linked renders⟩,
    fun f _ plain directory => plain.file?_join directory⟩
  rcases kinds with ⟨-, rfl⟩ | ⟨other, -⟩
  · have named : t.package ++ ending t.language ∈ rendered.files.map File.name := by
      rw [names]
      exact List.mem_singleton.2 rfl
    obtain ⟨f, member, same⟩ := List.mem_map.1 named
    have isPlain := plain f member
    rw [same] at isPlain
    exact (isPlain_append_ending_iff ..).1 isPlain
  · exact absurd go other

/-- A small number, and beside it something that is called like the class for small numbers. -/
def smallNumbers : Schema :=
  ⟨⟨.type .uint8, false, .empty⟩, [("unsigned byte", ⟨.empty, false, .empty⟩)]⟩

theorem isPlain_files_smallNumbers :
    ∃ rendered, (Target.mk .java "a/b").render (Catalog.ofSchema smallNumbers "root") =
        .ok rendered ∧
      rendered.files.map File.name =
        ["Root.java", "UnsignedByte0.java", "UnsignedByte.java"] ∧
      (rendered.files.map File.name).Nodup ∧ ∀ f ∈ rendered.files, IsPlain f.name := by
  have names : ((Target.mk .java "a/b").render (Catalog.ofSchema smallNumbers "root")).toOption.map
      (fun rendered => rendered.files.map File.name) =
        some ["Root.java", "UnsignedByte0.java", "UnsignedByte.java"] := by decide +kernel
  obtain ⟨rendered, found, listed⟩ := Option.map_eq_some_iff.1 names
  have renders := eq_ok_of_toOption found
  obtain ⟨distinct, plain, -⟩ :=
    isPlain_files_iff (Target.mk .java "a/b") smallNumbers "root" renders
  exact ⟨rendered, renders, listed, distinct, plain.2 nofun⟩

/-- Without a check, a package leads out of the directory that its file belongs in. -/
theorem leaves_directory :
    ∃ rendered f, (Target.mk .go "../x").render (Catalog.ofSchema smallNumbers "root") =
        .ok rendered ∧
      f ∈ rendered.files ∧ ¬ IsPlain f.name ∧
      Output.Path.place? (Output.Path.join "gen" f.name) = some ["x.go"] := by
  have names : ((Target.mk .go "../x").render (Catalog.ofSchema smallNumbers "root")).toOption.map
      (fun rendered => rendered.files.map File.name) = some ["../x.go"] := by decide +kernel
  obtain ⟨rendered, found, listed⟩ := Option.map_eq_some_iff.1 names
  obtain ⟨f, same, name⟩ := List.map_eq_singleton_iff.1 listed
  refine ⟨rendered, f, eq_ok_of_toOption found, same ▸ List.mem_singleton.2 rfl, ?_, ?_⟩
  · rw [name]
    exact fun plain => plain.noSlash (by decide)
  · rw [name]
    decide +kernel

end SchemaBindings.Binding
