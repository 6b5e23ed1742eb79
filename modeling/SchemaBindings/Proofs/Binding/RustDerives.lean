import SchemaBindings.Binding.RustModule
import SchemaBindings.Proofs.Binding.Drafts
import SchemaBindings.Proofs.Text.CarriageReturns

/-! The derive macros that a hint asks for. Its text is a list with commas, and every entry in which
something is left without the white space around it has to be a path of identifiers. If all of them
are, they stand behind the macros that every item derives; no other text gets into the attribute. -/

namespace SchemaBindings.Binding.RustModule

open Unicode (isBlank trim trimEnd trimStart)

/-- Letters, digits and underscores, without a digit first. -/
def IsSegment (text : String) : Prop :=
  ∃ first rest, text.toList = first :: rest ∧ (first.isAlpha = true ∨ first = '_') ∧
    ∀ c ∈ rest, c.isAlphanum = true ∨ c = '_'

/-- Segments, at least one, with double colons between them. -/
def IsMacroPath (text : String) : Prop :=
  ∃ parts : List String, parts ≠ [] ∧ (∀ part ∈ parts, IsSegment part) ∧
    text = String.intercalate "::" parts

/-- What is left of a text without the white space at both ends. -/
structure TrimsTo (text inner : String) : Prop where
  around : ∃ before after, text.toList = before ++ inner.toList ++ after ∧
    (∀ c ∈ before, isBlank c = true) ∧ ∀ c ∈ after, isBlank c = true
  first : ∀ c rest, inner.toList = c :: rest → isBlank c = false
  last : ∀ front c, inner.toList = front ++ [c] → isBlank c = false

/-- What stands between the commas of a text, trimmed, as far as something is left. -/
def HasEntries (text : String) (listed : List String) : Prop :=
  ∃ parts trimmed : List String, parts ≠ [] ∧ (∀ part ∈ parts, ',' ∉ part.toList) ∧
    text = String.intercalate "," parts ∧ List.Forall₂ TrimsTo parts trimmed ∧
    listed = trimmed.filter fun entry => !entry.isEmpty

/-- What may stand in a list of paths. -/
def IsListChar (c : Char) : Prop :=
  c.isAlphanum = true ∨ c = '_' ∨ c = ':' ∨ c = ',' ∨ c = ' '

section Segments

theorem segments_ne_nil (text : List Char) : segments text ≠ [] := by
  fun_cases segments text with
  | case1 => exact List.cons_ne_nil _ _
  | case2 rest => exact List.cons_ne_nil _ _
  | case3 c rest _ => cases segments rest <;> exact List.cons_ne_nil _ _

/-- Cutting at double colons loses nothing else. -/
theorem intercalate_segments (text : List Char) :
    List.intercalate [':', ':'] (segments text) = text := by
  fun_induction segments text with
  | case1 => rfl
  | case2 rest ih =>
    obtain ⟨part, parts, cut⟩ := List.exists_cons_of_ne_nil (segments_ne_nil rest)
    rw [cut] at ih ⊢
    rw [List.intercalate_cons_cons, ih]
    rfl
  | case3 c rest _ ih =>
    obtain ⟨part, parts, cut⟩ := List.exists_cons_of_ne_nil (segments_ne_nil rest)
    rw [cut] at ih ⊢
    cases parts with
    | nil => simpa [Text.extend] using ih
    | cons next parts =>
      rw [List.intercalate_cons_cons] at ih
      rw [Text.extend, List.intercalate_cons_cons, ← ih]
      rfl

theorem segments_cons {c : Char} (plain : c ≠ ':') (rest : List Char) :
    segments (c :: rest) = Text.extend c (segments rest) := by
  rw [segments]
  intro _ colon _
  exact plain colon

theorem segments_of_plain {part : List Char} (plain : ':' ∉ part) : segments part = [part] := by
  induction part with
  | nil => rfl
  | cons c rest ih =>
    obtain ⟨first, later⟩ := List.ne_and_not_mem_of_not_mem_cons plain
    rw [segments_cons (Ne.symm first), ih later]
    rfl

theorem segments_append {part : List Char} (plain : ':' ∉ part) (rest : List Char) :
    segments (part ++ ':' :: ':' :: rest) = part :: segments rest := by
  induction part with
  | nil => rw [List.nil_append, segments]
  | cons c part ih =>
    obtain ⟨first, later⟩ := List.ne_and_not_mem_of_not_mem_cons plain
    rw [List.cons_append, segments_cons (Ne.symm first), ih later]
    rfl

/-- Parts without colons are found again between double colons. -/
theorem segments_intercalate {parts : List (List Char)} (some' : parts ≠ [])
    (plain : ∀ part ∈ parts, ':' ∉ part) :
    segments (List.intercalate [':', ':'] parts) = parts := by
  induction parts with
  | nil => exact absurd rfl some'
  | cons part rest ih =>
    obtain ⟨first, later⟩ := List.forall_mem_cons.1 plain
    cases rest with
    | nil => rw [List.intercalate_singleton, segments_of_plain first]
    | cons next rest =>
      have behind := ih (List.cons_ne_nil next rest) later
      rw [List.intercalate_cons_cons, List.append_assoc]
      exact (segments_append first _).trans (congrArg (List.cons part) behind)

end Segments

section Paths

theorem isIdentifier_iff (segment : List Char) :
    isIdentifier segment = true ↔ IsSegment (String.ofList segment) := by
  unfold IsSegment
  rw [String.toList_ofList]
  cases segment with
  | nil => simp [isIdentifier]
  | cons first rest => simp [isIdentifier]

theorem IsSegment.isAlphanum_or {text : String} (segment : IsSegment text) :
    ∀ c ∈ text.toList, c.isAlphanum = true ∨ c = '_' := by
  obtain ⟨first, rest, chars, start, later⟩ := segment
  rw [chars]
  refine List.forall_mem_cons.2 ⟨?_, later⟩
  apply start.imp_left
  intro letter
  rw [Char.isAlphanum, letter, Bool.true_or]

theorem IsSegment.not_mem_colon {text : String} (segment : IsSegment text) : ':' ∉ text.toList := by
  intro member
  rcases segment.isAlphanum_or ':' member with word | underscore
  · exact absurd word (by decide)
  · exact absurd underscore (by decide)

/-- The check of an entry accepts the paths and nothing else. -/
theorem isPath_iff (entry : String) : isPath entry = true ↔ IsMacroPath entry := by
  unfold isPath
  rw [List.all_eq_true]
  constructor
  · intro identifiers
    refine ⟨(segments entry.toList).map String.ofList, ?_, ?_, ?_⟩
    · exact mt List.map_eq_nil_iff.1 (segments_ne_nil _)
    · intro part listed
      obtain ⟨segment, inside, rfl⟩ := List.mem_map.1 listed
      exact (isIdentifier_iff segment).1 (identifiers segment inside)
    · apply String.toList_inj.1
      rw [Text.toList_intercalate_ofList]
      exact (intercalate_segments entry.toList).symm
  · rintro ⟨parts, some', each, rfl⟩ segment listed
    have cut : segments (String.intercalate "::" parts).toList = parts.map String.toList := by
      rw [String.toList_intercalate]
      apply segments_intercalate (mt List.map_eq_nil_iff.1 some')
      intro segment listed
      obtain ⟨part, inside, rfl⟩ := List.mem_map.1 listed
      exact (each part inside).not_mem_colon
    rw [cut] at listed
    obtain ⟨part, inside, rfl⟩ := List.mem_map.1 listed
    apply (isIdentifier_iff part.toList).2
    rw [String.ofList_toList]
    exact each part inside

theorem IsMacroPath.isListChar {text : String} (path : IsMacroPath text) :
    ∀ c ∈ text.toList, IsListChar c := by
  obtain ⟨parts, -, each, rfl⟩ := path
  intro c member
  rcases Text.mem_intercalate member with colon | ⟨part, listed, inside⟩
  · have double : ∀ c ∈ "::".toList, c = ':' := by simp
    exact .inr (.inr (.inl (double c colon)))
  · exact ((each part listed).isAlphanum_or c inside).imp_right .inl

end Paths

section Entries

theorem TrimsTo.eq_trim {text inner : String} (trims : TrimsTo text inner) : inner = trim text := by
  obtain ⟨before, after, whole, blankBefore, blankAfter⟩ := trims.around
  have nothing : trimEnd after = [] := Text.trimEnd_of_blank blankAfter
  apply String.toList_inj.1
  unfold trim trimStart
  rw [String.toList_ofList, whole, List.append_assoc, List.dropWhile_append_of_pos blankBefore]
  rcases List.eq_nil_or_concat inner.toList with none | ⟨front, last, ends⟩
  · rw [none, List.nil_append, List.dropWhile_eq_nil_iff.2 blankAfter]
    rfl
  · -- There is ink at both ends, so neither of the two cuts goes any further.
    rw [List.concat_eq_append] at ends
    have stays : (inner.toList ++ after).dropWhile isBlank = inner.toList ++ after := by
      cases chars : inner.toList with
      | nil => simp [chars] at ends
      | cons c rest => exact List.dropWhile_cons_of_neg (by simp [trims.first c rest chars])
    rw [stays, ends, List.append_assoc, List.singleton_append,
      Text.trimEnd_append_ink (trims.last front last ends), nothing]

theorem trimsTo_trim (text : String) : TrimsTo text (trim text) := by
  have inner : (trim text).toList = trimEnd (trimStart text.toList) := String.toList_ofList
  obtain ⟨after, start⟩ := Text.trimEnd_isPrefix (trimStart text.toList)
  constructor
  case around =>
    refine ⟨text.toList.takeWhile isBlank,
      ((trimStart text.toList).reverse.takeWhile isBlank).reverse, ?_, ?_, ?_⟩
    · have back : trimEnd (trimStart text.toList) ++
          ((trimStart text.toList).reverse.takeWhile isBlank).reverse = trimStart text.toList := by
        unfold trimEnd
        rw [← List.reverse_append, List.takeWhile_append_dropWhile, List.reverse_reverse]
      rw [inner, List.append_assoc, back]
      exact List.takeWhile_append_dropWhile.symm
    · intro c member
      exact List.mem_takeWhile_imp member
    · intro c member
      exact List.mem_takeWhile_imp (List.mem_reverse.1 member)
  case first =>
    intro c rest chars
    have head := List.head?_dropWhile_not isBlank text.toList
    rw [inner] at chars
    rw [chars] at start
    unfold trimStart at start
    rwa [← start] at head
  case last =>
    intro front c ends
    rw [inner] at ends
    have some' : trimEnd (trimStart text.toList) ≠ [] := by simp [ends]
    obtain ⟨front', ink, ends', plain⟩ := Text.exists_ink_of_trimEnd some'
    obtain ⟨-, same⟩ := List.append_inj' (ends.symm.trans ends') rfl
    rwa [List.singleton_inj.1 same]

theorem forall₂_trimsTo_iff {parts trimmed : List String} :
    List.Forall₂ TrimsTo parts trimmed ↔ trimmed = parts.map trim := by
  constructor
  · intro each
    induction each with
    | nil => rfl
    | cons first _ ih => rw [first.eq_trim, ih, List.map_cons]
  · rintro rfl
    exact List.forall₂_map_right_iff.2 (List.forall₂_same.2 fun part _ => trimsTo_trim part)

/-- A text has one list of entries, the one that is read off it. -/
theorem hasEntries_iff {text : String} {listed : List String} :
    HasEntries text listed ↔ listed = entries text := by
  unfold HasEntries entries
  constructor
  · rintro ⟨parts, trimmed, some', plain, rfl, each, rfl⟩
    have cut : Text.splitAtEach (· == ',') (String.intercalate "," parts).toList =
        parts.map String.toList := by
      rw [String.toList_intercalate]
      apply Text.splitAtEach_intercalate (by rfl) (mt List.map_eq_nil_iff.1 some')
      intro chars listed c member
      obtain ⟨part, inside, rfl⟩ := List.mem_map.1 listed
      exact beq_false_of_ne fun same => plain part inside (same ▸ member)
    have trimmedEach : (parts.map String.toList).map (trim ∘ String.ofList) = parts.map trim := by
      rw [List.map_map]
      apply List.map_congr_left
      intro part _
      simp only [Function.comp_apply, String.ofList_toList]
    rw [cut, forall₂_trimsTo_iff.1 each, trimmedEach]
  · rintro rfl
    refine ⟨(Text.splitAtEach (· == ',') text.toList).map String.ofList, _, ?_, ?_, ?_,
      forall₂_trimsTo_iff.2 rfl, ?_⟩
    · exact mt List.map_eq_nil_iff.1 (Text.splitAtEach_ne_nil text.toList)
    · intro part listed
      obtain ⟨chars, inside, rfl⟩ := List.mem_map.1 listed
      rw [String.toList_ofList]
      intro comma
      have plain := Text.not_separator_of_mem_splitAtEach inside ',' comma
      exact absurd plain (by decide)
    · apply String.toList_inj.1
      rw [Text.toList_intercalate_ofList]
      exact (Text.intercalate_splitAtEach ',' text.toList).symm
    · rw [List.map_map]

end Entries

section Derives

variable {d : Declaration} {text : String}

/-- Without an entry that is no path, all entries are derived, and else the first of these fails. -/
theorem derives_eq (hinted : d.metadata.hint? deriveKey = some (.string text)) :
    derives d = match (entries text).find? (fun entry => !isPath entry) with
      | some entry =>
        .error ⟨.rust, d.pointer.descend ["metadata", deriveKey], .notDerivePath entry⟩
      | none => .ok (entries text) := by
  have read : hints.string? deriveKey d.metadata d.pointer = .ok (some text) :=
    string?_eq_some.2 hinted
  unfold derives
  rw [read]
  rfl

/-- The first entry that is no path is the one that is reported. -/
theorem derives_eq_error_iff (hinted : d.metadata.hint? deriveKey = some (.string text))
    (fault : Unsupported) :
    derives d = .error fault ↔ ∃ before entry after, entries text = before ++ entry :: after ∧
      (∀ other ∈ before, IsMacroPath other) ∧ ¬ IsMacroPath entry ∧
      fault = ⟨.rust, d.pointer.descend ["metadata", deriveKey], .notDerivePath entry⟩ := by
  rw [derives_eq hinted]
  constructor
  · intro failed
    split at failed
    · rename_i entry found
      cases failed
      obtain ⟨improper, before, after, whole, paths⟩ := List.find?_eq_some_iff_append.1 found
      refine ⟨before, entry, after, whole, ?_, ?_, rfl⟩
      · intro other listed
        apply (isPath_iff other).1
        simpa using paths other listed
      · intro path
        simp [(isPath_iff entry).2 path] at improper
    · cases failed
  · rintro ⟨before, entry, after, whole, paths, improper, rfl⟩
    have found : (entries text).find? (fun entry => !isPath entry) = some entry := by
      apply List.find?_eq_some_iff_append.2
      refine ⟨?_, before, after, whole, ?_⟩
      · simpa using mt (isPath_iff entry).1 improper
      · intro other listed
        simp [(isPath_iff other).2 (paths other listed)]
    rw [found]

theorem derives_eq_ok_iff (hinted : d.metadata.hint? deriveKey = some (.string text))
    (extra : List String) :
    derives d = .ok extra ↔ extra = entries text ∧ ∀ entry ∈ entries text, IsMacroPath entry := by
  have all : (entries text).find? (fun entry => !isPath entry) = none ↔
      ∀ entry ∈ entries text, IsMacroPath entry := by
    simp [isPath_iff]
  rw [derives_eq hinted, ← all]
  cases found : (entries text).find? (fun entry => !isPath entry) with
  | some entry => simp
  | none => simp [eq_comm]

theorem derives_of_draft {c : NamedCatalog} {names : Naming.Names}
    {draft : Draft (List String) Unit} (drafted : rules.draft c d names = .ok draft) :
    derives d = .ok draft.extra :=
  extra_of_draft drafted

theorem oneLine_of_isListChar {inside : String} (each : ∀ c ∈ inside.toList, IsListChar c) :
    Text.OneLine ("#[derive(" ++ inside ++ ")]").toList := by
  have single : Text.OneLine inside.toList := by
    intro feed
    have listed := each '\n' feed
    unfold IsListChar at listed
    revert listed
    decide
  rw [String.toList_append, String.toList_append]
  exact Text.oneLine_append.2 ⟨Text.oneLine_append.2 ⟨by decide, single⟩, by decide⟩

theorem isListChar_of_paths {paths : List String} (each : ∀ path ∈ paths, IsMacroPath path) :
    ∀ c ∈ (String.intercalate ", " paths).toList, IsListChar c := by
  intro c member
  rcases Text.mem_intercalate member with between | ⟨path, listed, inside⟩
  · have delimiter : ∀ c ∈ ", ".toList, IsListChar c := by simp [IsListChar]
    exact delimiter c between
  · exact (each path listed).isListChar c inside

end Derives

/-- What comes of a hint for derive macros: what is listed in its text, when the declaration fails for
it and with which fault, and else the attribute of its item. -/
structure DerivesListed (d : Declaration) (text : String) (listed : List String) : Prop where
  entries : ∀ other, HasEntries text other ↔ other = listed
  fails : ∀ fault, derives d = .error fault ↔ ∃ before entry after,
    listed = before ++ entry :: after ∧ (∀ other ∈ before, IsMacroPath other) ∧
    ¬ IsMacroPath entry ∧
    fault = ⟨.rust, d.pointer.descend ["metadata", "rustCustomDerive"], .notDerivePath entry⟩
  succeeds : ∀ extra, derives d = .ok extra ↔
    extra = listed ∧ ∀ entry ∈ listed, IsMacroPath entry
  stops : ∀ fault, derives d = .error fault → ∀ c names, rules.draft c d names = .error fault
  written : ∀ c names draft, rules.draft c d names = .ok draft → ∀ edges, ∃ inside,
    itemLines edges draft = lineComment "/// " draft.described ++ ["#[derive(" ++ inside ++ ")]"] ++
      bodyLines (closesCycle edges draft.id) draft.name draft.body ++ [""] ∧
    inside = String.intercalate ", "
      (["Debug", "Clone", "serde::Serialize", "serde::Deserialize"] ++ listed) ∧
    (∀ ch ∈ inside.toList, IsListChar ch) ∧ Text.OneLine ("#[derive(" ++ inside ++ ")]").toList

/-- A hint for derive macros either names an entry that is no path, or all of its entries are derived
in their order, and nothing but paths, commas and spaces is in the attribute. -/
theorem derives_listed {d : Declaration} {text : String}
    (hinted : d.metadata.hint? "rustCustomDerive" = some (.string text)) :
    ∃ listed, DerivesListed d text listed := by
  refine ⟨entries text, ?_⟩
  constructor
  case entries => exact fun other => hasEntries_iff
  case fails => exact derives_eq_error_iff hinted
  case succeeds => exact derives_eq_ok_iff hinted
  case stops =>
    intro fault failed c names
    exact (bind_eq_error ..).2 (.inl failed)
  case written =>
    intro c names draft drafted edges
    obtain ⟨same, paths⟩ := (derives_eq_ok_iff hinted _).1 (derives_of_draft drafted)
    have base : ∀ path ∈ ["Debug", "Clone", "serde::Serialize", "serde::Deserialize"],
        isPath path = true := by decide
    have inside := isListChar_of_paths (List.forall_mem_append.2
      ⟨fun path listed => (isPath_iff path).1 (base path listed), paths⟩)
    refine ⟨_, ?_, rfl, inside, ?_⟩
    · unfold itemLines deriveLine
      rw [same]
    · apply oneLine_of_isListChar
      exact inside

/-- A record for which Rust is asked to derive two more macros, in a text with stray commas and with
white space outside of ASCII. -/
def hashed : Declaration where
  id := 0
  path := ["root"]
  shape := .record [] false
  metadata := ⟨none, [], [("rustCustomDerive", .string ", std::hash::Hash ,\u2003_Eq\t,")]⟩
  nullable := false
  owner := none
  pointer := .root

theorem derives_listed_hashed :
    hashed.metadata.hint? "rustCustomDerive" =
        some (.string ", std::hash::Hash ,\u2003_Eq\t,") ∧
      ∃ listed, DerivesListed hashed ", std::hash::Hash ,\u2003_Eq\t," listed ∧
        listed = ["std::hash::Hash", "_Eq"] ∧ derives hashed = .ok listed := by
  have hinted : hashed.metadata.hint? "rustCustomDerive" =
      some (.string ", std::hash::Hash ,\u2003_Eq\t,") := by rfl
  have derived : (derives hashed).toOption = some ["std::hash::Hash", "_Eq"] := by decide +kernel
  obtain ⟨listed, result⟩ := derives_listed hinted
  have known := eq_ok_of_toOption derived
  obtain ⟨same, -⟩ := (result.succeeds _).1 known
  exact ⟨hinted, listed, result, same.symm, same ▸ known⟩

/-- Between colons there has to be a name, and a name starts with no digit. -/
example : [":", "::A", "A::", "A:::B", "A::1", "A B", "É", "A::_1"].map isPath =
    [false, false, false, false, false, false, false, true] := by
  decide +kernel

end SchemaBindings.Binding.RustModule
