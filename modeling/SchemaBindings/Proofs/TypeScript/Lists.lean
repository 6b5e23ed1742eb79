import SchemaBindings.Proofs.TypeScript.Types

/-! Lists whose items are written as the text of a hint. The brackets of the list are behind the text,
and belong to all of it unless an intersection is open there or the text ends its line. Alternatives
are in parentheses. -/

namespace SchemaBindings.TypeScript

open Binding (NamedCatalog TypeExpr namedFor)
open Binding.TypeScriptModule (hints listText orNull typeText)

section Operators

variable {ts : List Token} {t : TypeTree}

theorem derives_intersection (derives : Derives .union ts t) (single : .mark '|' ∉ ts) :
    Derives .intersection ts t := by
  cases derives with
  | intersection alone => exact alone
  | either => simp at single

theorem derives_primary (derives : Derives .intersection ts t) (single : .mark '&' ∉ ts) :
    Derives .primary ts t := by
  cases derives with
  | primary alone => exact alone
  | both => simp at single

/-- Without parentheses and braces, an operand is a name with brackets behind it. -/
theorem not_mem_of_primary (derives : Derives .primary ts t) (noGroup : .mark '(' ∉ ts)
    (noMap : .mark '\x7b' ∉ ts) : .mark '&' ∉ ts := by
  generalize same : Level.primary = level at derives
  induction derives with
  | name => simp
  | array item ih =>
    rw [List.mem_append, not_or] at noGroup noMap
    have inner := ih noGroup.1 noMap.1 rfl
    simp [inner]
  | map => simp [signature] at noMap
  | group => simp at noGroup
  | _ => cases same

theorem exists_intersection (derives : Derives .intersection ts t) (noGroup : .mark '(' ∉ ts)
    (noMap : .mark '\x7b' ∉ ts) (common : .mark '&' ∈ ts) :
    ∃ ls rs l r, ts = ls ++ .mark '&' :: rs ∧ t = .intersection l r ∧
      Derives .intersection ls l ∧ Derives .primary rs r := by
  cases derives with
  | primary alone => exact absurd common (not_mem_of_primary alone noGroup noMap)
  | both left right => exact ⟨_, _, _, _, rfl, rfl, left, right⟩

/-- Where a type is complete, a bracket on a new line does not go on with it. -/
theorem not_derives_of_startsLine (derives : Derives .union ts t) (rest : List Token)
    (other : TypeTree) : ¬ Derives .union (ts ++ .bracket true :: rest) other := by
  intro longer
  obtain ⟨as, c, o, run, -⟩ := reaches_of_derives derives []
  obtain ⟨as', c', o', runs, -⟩ := reaches_of_derives longer []
  -- Behind an operand there is no step for such a bracket.
  rw [Reader.run_append, run, Option.bind_some, Reader.run_cons] at runs
  cases runs

end Operators

section Lists

variable {text : String} {hinted : TypeTree}

theorem mark_mem_tokens_text {c : Char} (operator : c ∈ ['|', '&', '(', '\x7b']) (text : String) :
    .mark c ∈ tokens text.toList ↔ c ∈ text.toList := by
  simp only [List.mem_cons, List.not_mem_nil, or_false] at operator
  rcases operator with rfl | rfl | rfl | rfl <;>
    exact mark_mem_tokens (by decide) (by decide) (by decide) _

theorem listText_of_bar (bar : '|' ∈ text.toList) : listText text = "(" ++ text ++ ")[]" :=
  if_pos (List.contains_iff_mem.2 bar)

theorem listText_of_not_bar (single : '|' ∉ text.toList) : listText text = text ++ "[]" :=
  if_neg fun bar => single (List.contains_iff_mem.1 bar)

theorem reads_list_of_bar (hint : Reads text hinted) (bar : '|' ∈ text.toList) :
    Reads (listText text) (.array hinted) := by
  rw [listText_of_bar bar]
  exact .intersection (.primary (derives_group hint))

theorem derives_intersection_text (hint : Reads text hinted) (single : '|' ∉ text.toList) :
    Derives .intersection (tokens text.toList) hinted :=
  derives_intersection hint (by rwa [mark_mem_tokens_text (by decide)])

theorem reads_list_of_operand (hint : Reads text hinted) (single : '|' ∉ text.toList)
    (alone : '&' ∉ text.toList) (continues : endsLine text.toList = false) :
    Reads (listText text) (.array hinted) := by
  have operand := derives_primary (derives_intersection_text hint single)
    (by rwa [mark_mem_tokens_text (by decide)])
  rw [listText_of_not_bar single]
  exact .intersection (.primary (derives_brackets operand continues))

/-- The brackets are those of the last part of an intersection only. -/
theorem reads_list_of_intersection (hint : Reads text hinted) (noGroup : '(' ∉ text.toList)
    (noMap : '\x7b' ∉ text.toList) (single : '|' ∉ text.toList) (common : '&' ∈ text.toList)
    (continues : endsLine text.toList = false) :
    ∃ l r, hinted = .intersection l r ∧ Reads (listText text) (.intersection l (.array r)) := by
  obtain ⟨ls, rs, l, r, split, rfl, left, right⟩ :=
    exists_intersection (derives_intersection_text hint single)
      (by rwa [mark_mem_tokens_text (by decide)]) (by rwa [mark_mem_tokens_text (by decide)])
      (by rwa [mark_mem_tokens_text (by decide)])
  refine ⟨l, r, rfl, ?_⟩
  rw [Reads, listText_of_not_bar single, tokens_brackets continues, split, List.append_assoc,
    List.cons_append]
  exact .intersection (.both left (.array right))

theorem not_reads_list_of_break (hint : Reads text hinted) (single : '|' ∉ text.toList)
    (ends : endsLine text.toList = true) (nullable : Bool) (tree : TypeTree) :
    ¬ Reads (orNull nullable (listText text)) tree := by
  have brackets :
      tokens (text ++ "[]").toList = tokens text.toList ++ [.bracket true, .mark ']'] := by
    rw [tokens_append_suffix text rfl, ends]
    rfl
  rw [Reads, listText_of_not_bar single]
  cases nullable with
  | false =>
    rw [orNull, if_neg Bool.false_ne_true, brackets]
    exact not_derives_of_startsLine hint _ tree
  | true =>
    rw [orNull, if_pos rfl, tokens_append_of_startLine _ rfl (by decide), brackets,
      List.append_assoc]
    exact not_derives_of_startsLine hint _ tree

theorem orNull_array_ne_intersection (item l r : TypeTree) (nullable : Bool) :
    (TypeTree.array item).orNull nullable ≠ (TypeTree.intersection l r).orNull nullable := by
  cases nullable <;> simp [TypeTree.orNull]

/-- A list of a text is read as a list of all that the text stands for exactly when the text shows
an alternative, or is one operand that the brackets go on with. -/
theorem reads_list_iff (hint : Reads text hinted) (noGroup : '(' ∉ text.toList)
    (noMap : '\x7b' ∉ text.toList) (nullable : Bool) :
    Reads (orNull nullable (listText text)) ((TypeTree.array hinted).orNull nullable) ↔
      '|' ∈ text.toList ∨ '&' ∉ text.toList ∧ endsLine text.toList = false := by
  by_cases bar : '|' ∈ text.toList
  · exact iff_of_true (reads_orNull (reads_list_of_bar hint bar) nullable) (.inl bar)
  rw [or_iff_right bar]
  cases ends : endsLine text.toList with
  | true =>
    have unread := not_reads_list_of_break hint bar ends nullable
      ((TypeTree.array hinted).orNull nullable)
    exact iff_of_false unread fun whole => Bool.false_ne_true whole.2.symm
  | false =>
    by_cases common : '&' ∈ text.toList
    · obtain ⟨l, r, rfl, reads⟩ := reads_list_of_intersection hint noGroup noMap bar common ends
      refine iff_of_false (fun whole => ?_) fun alone => alone.1 common
      exact orNull_array_ne_intersection _ _ _ _ (whole.unique (reads_orNull reads nullable))
    · exact iff_of_true (reads_orNull (reads_list_of_operand hint bar common ends) nullable)
        ⟨common, rfl⟩

end Lists

section Schemas

variable {document : Json} {schema : Schema}

/-- A text stands for the items of a list: by a hint of theirs, which says all there is to say, or by
a hint of the definition that they refer to, and then null may be added. -/
inductive StandsFor (schema : Schema) (text : String) (item : Node) : Bool → Prop
  | own (hint : item.metadata.hint? "typescriptType" = some (.string text)) :
      StandsFor schema text item false
  | referred {name : String} {target : Node}
      (untyped : item.metadata.hint? "typescriptType" = none) (form : item.form = .ref name)
      (defined : (name, target) ∈ schema.definitions)
      (hint : target.metadata.hint? "typescriptType" = some (.string text)) :
      StandsFor schema text item (item.nullable || Catalog.targetNullable schema name)

/-- A definition with a hint is referred to by the text of the hint. -/
theorem reference_of_hint {c : NamedCatalog} {rootName : String}
    (mirrors : Catalog.Mirrors schema rootName c.catalog) (regular : Schema.Regular schema)
    {name text : String} {target : Node} (defined : (name, target) ∈ schema.definitions)
    (hint : target.metadata.hint? "typescriptType" = some (.string text)) {id : Nat}
    (found : Catalog.definitionId? schema name = some id) :
    c.reference hints id = .ok (.replacement text) := by
  obtain ⟨i, other, rfl, listed⟩ := Catalog.definitionId?_eq_some found
  have entry := (Keyed.lookup_eq_some_iff_mem regular.definitions).2 defined
  have there := (Keyed.lookup_eq_some_iff_mem regular.definitions).2 (List.mem_of_getElem? listed)
  cases entry.symm.trans there
  obtain ⟨d, declared, describes⟩ :=
    mirrors.declaration_at (Catalog.getElem?_declaredPlaces_definition listed)
  have own : d.metadata.hint? hints.type = some (.string text) := by
    rw [describes.metadata]
    exact hint
  simp only [NamedCatalog.reference, declared, Binding.HintKeys.type?,
    Binding.string?_eq_some.2 own]
  rfl

/-- The use of an item is written as the text that stands for it. -/
theorem exists_type_of_standsFor {c : NamedCatalog} {rootName : String}
    (mirrors : Catalog.Mirrors schema rootName c.catalog) (regular : Schema.Regular schema)
    {place : Catalog.Place} {text : String} {added : Bool}
    (stands : StandsFor schema text place.node added) {first : Nat} {use : TypeUse}
    (means : Catalog.Means schema (Catalog.declaredPlaces schema rootName) first place use) :
    ∃ type, TypeExpr.ofUse hints c use = .ok type ∧ typeText type = orNull added text := by
  cases stands with
  | own hint =>
    rw [← means.metadata_eq] at hint
    exact ⟨.verbatim text, Binding.ofUse_of_typeOf (.verbatim hint), rfl⟩
  | @referred name target untyped form defined hint =>
    cases means with
    | @reference _ _ id own found =>
      cases form.symm.trans own
      have known := reference_of_hint mirrors regular defined hint found
      exact ⟨.declared id (.replacement text) (place.node.nullable || _),
        Binding.ofUse_of_typeOf (.built untyped rfl (.declared rfl known)), rfl⟩
    | declared nameable => simp [Node.isNameable, form] at nameable
    | _ own => cases form.symm.trans own

/-- A list whose items are written as a text. -/
structure HintedList (schema : Schema) (rootName : String) (place : Catalog.Place) (text : String)
    (added : Bool) (hinted : TypeTree) : Prop where
  located : Catalog.Located schema rootName place
  /-- With a hint of its own the list would be written as that. -/
  untyped : place.node.metadata.hint? "typescriptType" = none
  items : ∃ item, place.node.form = .elements item ∧ StandsFor schema text item added
  reads : Reads text hinted
  noGroup : '(' ∉ text.toList
  noMap : '\x7b' ∉ text.toList

theorem HintedList.exists_type {rootName : String} {place : Catalog.Place} {text : String}
    {added : Bool} {hinted : TypeTree} (list : HintedList schema rootName place text added hinted)
    {c : NamedCatalog} (mirrors : Catalog.Mirrors schema rootName c.catalog)
    (regular : Schema.Regular schema) {first : Nat} {use : TypeUse}
    (means : Catalog.Means schema (Catalog.declaredPlaces schema rootName) first place use) :
    ∃ type, TypeExpr.ofUse hints c use = .ok type ∧
      typeText type = orNull place.node.nullable (listText (orNull added text)) := by
  obtain ⟨item, form, stands⟩ := list.items
  cases means with
  | @elements _ _ inner own means =>
    cases form.symm.trans own
    obtain ⟨type, read, written⟩ := exists_type_of_standsFor mirrors regular stands means
    exact ⟨.elements none type place.node.nullable,
      Binding.ofUse_of_typeOf (.built list.untyped rfl (.elements rfl read)),
      by rw [typeText, written]⟩
  | declared nameable => simp [Node.isNameable, form] at nameable
  | _ own => cases form.symm.trans own

/-- The type of a list whose items are written as a text. It is read as a list of what the text
stands for exactly when null is added, the text shows an alternative, or is one operand that does not
end its line. What the brackets are those of in an intersection is its last part. -/
theorem reads_hintedList_iff (read : Schema.ofJson document = .ok schema) {rootName : String}
    {place : Catalog.Place} {text : String} {added : Bool} {hinted : TypeTree}
    (list : HintedList schema rootName place text added hinted) :
    (∃ use ∈ (Catalog.ofSchema schema rootName).uses, use.pointer = place.pointer) ∧
      ∀ use ∈ (Catalog.ofSchema schema rootName).uses, use.pointer = place.pointer →
        ∃ type, TypeExpr.ofUse hints (namedFor .typescript schema rootName) use = .ok type ∧
          (Reads (typeText type)
              ((TypeTree.array (hinted.orNull added)).orNull place.node.nullable) ↔
            added = true ∨ '|' ∈ text.toList ∨
              '&' ∉ text.toList ∧ endsLine text.toList = false) ∧
          (added = false → '|' ∉ text.toList → '&' ∈ text.toList → endsLine text.toList = false →
            ∃ l r, hinted = .intersection l r ∧ Reads (typeText type)
              ((TypeTree.intersection l (.array r)).orNull place.node.nullable)) := by
  have regular := Schema.regular_of_ofJson read
  have mirrors := Catalog.mirrors_ofSchema regular rootName
  obtain ⟨item, form, -⟩ := list.items
  have typed : Catalog.HasUse place :=
    Catalog.hasUse_of_plain regular list.located (by simp [Node.isNameable, form])
  constructor
  · obtain ⟨first, use, used, means⟩ := mirrors.exists_use regular list.located typed
    exact ⟨use, used, means.pointer_eq⟩
  intro use used here
  -- No other place has the pointer of the list, so the use is that of the list.
  obtain ⟨other, first, located, -, means⟩ := mirrors.means_of_mem_uses used
  obtain rfl := Catalog.place_eq_of_pointer_eq regular located list.located
    (means.pointer_eq.symm.trans here)
  obtain ⟨type, read, written⟩ := list.exists_type
    (c := namedFor .typescript schema rootName) mirrors regular means
  refine ⟨type, read, ?_, ?_⟩
  · rw [written]
    cases added with
    | false =>
      have alone : (false = true) ↔ False := iff_of_false Bool.false_ne_true id
      rw [alone, false_or]
      exact reads_list_iff list.reads list.noGroup list.noMap _
    | true =>
      have bar : '|' ∈ (orNull true text).toList := by simp [orNull]
      exact iff_of_true
        (reads_orNull (reads_list_of_bar (reads_orNull list.reads true) bar) _) (.inl rfl)
  · rintro rfl single common continues
    obtain ⟨l, r, same, reads⟩ := reads_list_of_intersection list.reads list.noGroup list.noMap
      single common continues
    rw [written]
    exact ⟨l, r, same, reads_orNull reads _⟩

/-- A node with a hint for an intersection. -/
def sharedNode : Json :=
  .object [("metadata", .object [("typescriptType", .string "A & B")]), ("type", .string "string")]

def sharedType : Node :=
  ⟨.type .string, false, ⟨none, [], [("typescriptType", .string "A & B")]⟩⟩

theorem readNode_sharedNode (definitions : List String) (here : Pointer) :
    Schema.readNode definitions false here sharedNode = .ok sharedType :=
  (Schema.readNode_eq_ok ..).2 ⟨_, rfl, by rfl, by rfl, by rfl,
    (Schema.readForm_eq_ok _).2 (.type (by rfl) (by rfl))⟩

theorem reads_shared :
    Reads "A & B" (.intersection (.reference "A") (.reference "B")) := by
  have split : tokens "A & B".toList = [.word ['A']] ++ .mark '&' :: [.word ['B']] := by decide
  have left : Derives .primary [.word ['A']] (.reference "A") := .name rfl
  have right : Derives .primary [.word ['B']] (.reference "B") := .name rfl
  rw [Reads, split]
  exact .intersection (.both (.primary left) right)

/-- A list of references that may be null, to a definition with the hint. -/
def pairItems : Json :=
  .object [
    ("definitions", .object [("pair", sharedNode)]),
    ("elements", .object [("nullable", .bool true), ("ref", .string "pair")])]

def pairItemsSchema : Schema :=
  ⟨⟨.elements ⟨.ref "pair", true, .empty⟩, false, .empty⟩, [("pair", sharedType)]⟩

theorem ofJson_pairItems : Schema.ofJson pairItems = .ok pairItemsSchema := by
  have item : Schema.readNode ["pair"] false (Pointer.root.child "elements")
      (.object [("nullable", .bool true), ("ref", .string "pair")]) =
        .ok ⟨.ref "pair", true, .empty⟩ :=
    (Schema.readNode_eq_ok ..).2 ⟨_, rfl, by rfl, by rfl, by rfl,
      (Schema.readForm_eq_ok _).2 (.ref (by rfl) (by rfl) List.mem_cons_self)⟩
  have root : Schema.readNode ["pair"] true .root pairItems = .ok pairItemsSchema.root :=
    (Schema.readNode_eq_ok ..).2 ⟨_, rfl, by rfl, by rfl, by rfl,
      (Schema.readForm_eq_ok _).2 (.elements (by rfl) (by rfl) item)⟩
  exact (Schema.ofJson_eq_ok ..).2 ⟨_, [("pair", sharedNode)], rfl, .inr ⟨_, by rfl, by rfl⟩, root,
    (Schema.readEntries_eq_ok ..).2 (.cons ⟨rfl, readNode_sharedNode _ _, rfl⟩ .nil),
    eq_ok_of_toOption (by decide +kernel)⟩

theorem reads_pairItems :
    Schema.ofJson pairItems = .ok pairItemsSchema ∧
      HintedList pairItemsSchema "root" (Catalog.rootPlace pairItemsSchema "root") "A & B" true
        (.intersection (.reference "A") (.reference "B")) ∧
      ∃ use ∈ (Catalog.ofSchema pairItemsSchema "root").uses, ∃ type,
        TypeExpr.ofUse hints (namedFor .typescript pairItemsSchema "root") use = .ok type ∧
          Reads (typeText type) (.array (.union
            (.intersection (.reference "A") (.reference "B")) (.predefined "null"))) := by
  have list : HintedList pairItemsSchema "root" (Catalog.rootPlace pairItemsSchema "root") "A & B"
      true (.intersection (.reference "A") (.reference "B")) :=
    ⟨.root, rfl, ⟨_, rfl, .referred rfl rfl List.mem_cons_self rfl⟩, reads_shared, by decide,
      by decide⟩
  obtain ⟨⟨use, used, here⟩, each⟩ := reads_hintedList_iff ofJson_pairItems list
  obtain ⟨type, read, reads, -⟩ := each use used here
  exact ⟨ofJson_pairItems, list, use, used, type, read, reads.2 (.inl rfl)⟩

/-- A list of nodes with the hint. -/
def sharedItems : Json := .object [("elements", sharedNode)]

def sharedItemsSchema : Schema := ⟨⟨.elements sharedType, false, .empty⟩, []⟩

theorem ofJson_sharedItems : Schema.ofJson sharedItems = .ok sharedItemsSchema :=
  Schema.ofJson_of_readNode rfl (by rfl)
    ((Schema.readNode_eq_ok ..).2 ⟨_, rfl, by rfl, by rfl, by rfl,
      (Schema.readForm_eq_ok _).2 (.elements (by rfl) (by rfl) (readNode_sharedNode _ _))⟩)

/-- The brackets of such a list are those of the second type only. -/
theorem not_reads_sharedItems :
    Schema.ofJson sharedItems = .ok sharedItemsSchema ∧
      sharedItemsSchema.root.form = .elements sharedType ∧
      sharedType.metadata.hint? "typescriptType" = some (.string "A & B") ∧
      (∃ rendered, Binding.Target.render ⟨.typescript, ""⟩
          (Catalog.ofSchema sharedItemsSchema "root") = .ok rendered ∧
        rendered.files = [⟨"index.ts", Text.unlines ["// " ++ Binding.notice, "",
          "export type Root = " ++ "A & B[]" ++ ";"]⟩]) ∧
      Reads "A & B" (.intersection (.reference "A") (.reference "B")) ∧
      Reads "A & B[]" (.intersection (.reference "A") (.array (.reference "B"))) ∧
      ¬ Reads "A & B[]" (.array (.intersection (.reference "A") (.reference "B"))) := by
  have rendered : ((Binding.Target.render ⟨.typescript, ""⟩
      (Catalog.ofSchema sharedItemsSchema "root")).toOption.map Binding.Rendered.files) =
        some [⟨"index.ts", Text.unlines ["// " ++ Binding.notice, "",
          "export type Root = " ++ "A & B[]" ++ ";"]⟩] := by
    decide +kernel
  obtain ⟨rendered, renders, files⟩ := Option.map_eq_some_iff.1 rendered
  have last : Reads "A & B[]" (.intersection (.reference "A") (.array (.reference "B"))) := by
    obtain ⟨l, r, same, reads⟩ := reads_list_of_intersection reads_shared (by decide) (by decide)
      (by decide) (by decide) (by decide)
    cases same
    exact reads
  refine ⟨ofJson_sharedItems, rfl, rfl, ⟨rendered, eq_ok_of_toOption renders, files⟩, reads_shared,
    last, fun whole => ?_⟩
  cases whole.unique last

end Schemas

end SchemaBindings.TypeScript
