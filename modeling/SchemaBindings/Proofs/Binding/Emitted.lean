import SchemaBindings.Proofs.Binding.FiniteSize
import SchemaBindings.Proofs.Catalog.Ownership

/-! What is written for a target closes over itself. A declaration that a type hint suppresses, on
itself or on one it is nested in, is not written, and nothing that is written uses its name. -/

namespace SchemaBindings.Binding

open Catalog (Consistent Linked Mirrors Suppressed)
open Naming (Names)
open Schema (Regular)

section Referring

/-- The name in a reference. The text of a hint is no name. -/
def Reference.name? : Reference → Option String
  | .name text => some text
  | .replacement _ => none

/-- The name of the declaration that a type comes down to under its lists and maps. -/
def TypeExpr.referred : TypeExpr → List String
  | .elements _ item _ => item.referred
  | .values _ item _ => item.referred
  | .declared _ reference _ => reference.name?.toList
  | _ => []

/-- The names of declarations that a body is written with: in the types of its members and in what
it wraps, in its cases, and as its base. -/
def Body.referred {μ : Type} (body : Body μ) : List String :=
  body.types.flatMap TypeExpr.referred ++
    (body.references ++ body.base?.toList).filterMap Reference.name?

variable {ε μ : Type} {rules : Rules ε μ} {keys : HintKeys} {c : NamedCatalog}

theorem eq_of_name?_eq_some {reference : Reference} {text : String}
    (named : reference.name? = some text) : reference = .name text := by
  cases reference with
  | name other => exact congrArg _ (Option.some.inj named)
  | replacement other => cases named

/-- A type is written with the name of what its use comes down to, if with any. -/
theorem reference_of_mem_referred {use : TypeUse} {type : TypeExpr} {text : String}
    (read : TypeExpr.ofUse keys c use = .ok type) (member : text ∈ type.referred) :
    ∃ id ∈ use.numbers, c.reference keys id = .ok (.name text) := by
  induction type generalizing use with
  | elements container item nullable ih =>
    cases typeOf_of_ofUse read with
    | built _ _ built =>
      cases built with
      | elements kind itemRead =>
        obtain ⟨id, number, known⟩ := ih itemRead member
        exact ⟨id, Catalog.mem_numbers_of_item (.inl kind) number, known⟩
  | values container item nullable ih =>
    cases typeOf_of_ofUse read with
    | built _ _ built =>
      cases built with
      | values kind itemRead =>
        obtain ⟨id, number, known⟩ := ih itemRead member
        exact ⟨id, Catalog.mem_numbers_of_item (.inr kind) number, known⟩
  | declared id reference nullable =>
    obtain ⟨direct, known⟩ := direct?_of_ofUse read
    obtain rfl := eq_of_name?_eq_some (Option.mem_toList.1 member)
    exact ⟨id, Catalog.mem_numbers_of_direct direct, known⟩
  | _ => cases member

theorem reference_of_mem_fields {members : List Member} {names : List String}
    {fields : List (Field μ)} (read : rules.fields c (members.zip names) = .ok fields)
    {text : String} (member : text ∈ (fields.map Field.type).flatMap TypeExpr.referred) :
    ∃ id ∈ (members.map Member.type).flatMap TypeUse.numbers,
      c.reference rules.keys id = .ok (.name text) := by
  obtain ⟨type, typed, inside⟩ := List.mem_flatMap.1 member
  obtain ⟨f, listed, rfl⟩ := List.mem_map.1 typed
  obtain ⟨entry, known, typeRead⟩ := type_of_mem_fields read listed
  obtain ⟨id, number, found⟩ := reference_of_mem_referred typeRead inside
  have used : entry.1.type ∈ members.map Member.type :=
    List.mem_map_of_mem (List.of_mem_zip known).1
  exact ⟨id, List.mem_flatMap.2 ⟨_, used, number⟩, found⟩

/-- A body is written with names of declarations that its shape has the numbers of. -/
theorem reference_of_mem_body {names : Names} {shape : Shape} {body : Body μ}
    (bodyOf : BodyOf rules c names shape body) {text : String} (member : text ∈ body.referred) :
    ∃ id ∈ shape.numbers, c.reference rules.keys id = .ok (.name text) := by
  have ofUses {id : Nat} (number : id ∈ shape.uses.flatMap TypeUse.numbers) :
      id ∈ shape.numbers := List.mem_append_left _ number
  cases bodyOf with
  | record read =>
    rw [Body.referred, List.mem_append] at member
    rcases member with member | member
    · obtain ⟨id, number, known⟩ := reference_of_mem_fields read member
      exact ⟨id, ofUses number, known⟩
    · cases member
  | enumeration => cases member
  | @union tag variants cases' read =>
    obtain ⟨reference, inside, named⟩ := List.mem_filterMap.1 member
    obtain rfl := eq_of_name?_eq_some named
    have noBase : (Body.union tag cases' : Body μ).base? = none := rfl
    rw [noBase, Option.toList_none, List.append_nil] at inside
    obtain ⟨k, listed, same⟩ := List.mem_map.1 inside
    obtain ⟨entry, known, case⟩ := caseOf_of_mem_cases read listed
    exact ⟨entry.1, List.mem_append_right _ (List.of_mem_zip known).1, same ▸ case.reference⟩
  | @variant parent tagValue members additional base fields known read =>
    rw [Body.referred, List.mem_append] at member
    rcases member with member | member
    · obtain ⟨id, number, found⟩ := reference_of_mem_fields read member
      exact ⟨id, ofUses number, found⟩
    · obtain ⟨reference, inside, named⟩ := List.mem_filterMap.1 member
      obtain rfl := eq_of_name?_eq_some named
      obtain rfl := List.mem_singleton.1 inside
      exact ⟨parent, List.mem_append_right _ (List.mem_singleton.2 rfl), known⟩
  | wrapper read =>
    rw [Body.referred, List.mem_append] at member
    rcases member with member | member
    · rw [Body.types, List.flatMap_singleton] at member
      obtain ⟨id, number, known⟩ := reference_of_mem_referred read member
      exact ⟨id, ofUses (by rwa [Shape.uses, List.flatMap_singleton]), known⟩
    · cases member

theorem hint?_eq_none_of_reference {id : Nat} {text : String} {d : Declaration}
    (known : c.reference keys id = .ok (.name text))
    (declared : c.catalog.declaration? id = some d) : d.metadata.hint? keys.type = none := by
  unfold NamedCatalog.reference at known
  simp only [declared] at known
  obtain ⟨hint, read, known⟩ := (bind_eq_ok ..).1 known
  cases hint with
  | some text => cases known
  | none => exact string?_eq_none.1 read

end Referring

section Writing

variable {ε μ : Type} {rules : Rules ε μ} {c : NamedCatalog}

theorem mem_written_iff {entry : Declaration × Names} :
    entry ∈ rules.written c ↔ ∃ i : Nat, c.catalog.declarations[i]? = some entry.1 ∧
      c.names[i]? = some entry.2 ∧ (replaced rules.keys.type c.catalog)[i]? = some false := by
  simp only [Rules.written, List.mem_map, List.mem_filter, Prod.exists, Bool.not_eq_true',
    exists_and_right, exists_eq_right]
  constructor
  · intro listed
    obtain ⟨i, found⟩ := List.mem_iff_getElem?.1 listed
    obtain ⟨pair, marked⟩ := List.getElem?_zip_eq_some.1 found
    obtain ⟨declared, named⟩ := List.getElem?_zip_eq_some.1 pair
    exact ⟨i, declared, named, marked⟩
  · rintro ⟨i, declared, named, marked⟩
    have found : ((c.catalog.declarations.zip c.names).zip
        (replaced rules.keys.type c.catalog))[i]? = some ((entry.1, entry.2), false) :=
      List.getElem?_zip_eq_some.2 ⟨List.getElem?_zip_eq_some.2 ⟨declared, named⟩, marked⟩
    exact List.mem_of_getElem? found

/-- The drafts are those of what is written, one for each. -/
theorem forall₂_of_drafts {drafts : List (Draft ε μ)} (read : rules.drafts c = .ok drafts) :
    List.Forall₂ (fun entry d => rules.draft c entry.1 entry.2 = .ok d) (rules.written c)
      drafts := by
  rw [Rules.drafts] at read
  generalize rules.written c = entries at read
  induction entries generalizing drafts with
  | nil =>
    cases read
    exact .nil
  | cons entry rest ih =>
    simp only [Rules.draftAll, bind_eq_ok, pure_eq_ok] at read
    obtain ⟨first, firstRead, later, laterRead, rfl⟩ := read
    exact .cons firstRead (ih laterRead)

end Writing

/-- Two lists of names agree on whatever is not suppressed. -/
structure Agree (key : String) (catalog : Catalog) (names other : List Names) : Prop where
  count : other.length = names.length
  same : ∀ id : Nat, ¬ Suppressed key catalog id → other[id]? = names[id]?

section Coincidence

variable {ε μ : Type} {rules : Rules ε μ} {keys : HintKeys} {catalog : Catalog}
  {names other : List Names}

theorem ofUse_congr {use : TypeUse}
    (agree : ∀ id ∈ use.numbers, NamedCatalog.reference ⟨catalog, other⟩ keys id =
      NamedCatalog.reference ⟨catalog, names⟩ keys id) :
    TypeExpr.ofUse keys ⟨catalog, other⟩ use = TypeExpr.ofUse keys ⟨catalog, names⟩ use := by
  match use with
  | .mk kind nullable metadata here =>
    rw [TypeExpr.ofUse.eq_def, TypeExpr.ofUse.eq_def keys ⟨catalog, names⟩]
    cases kind with
    | elements item =>
      have inner : TypeExpr.ofUse keys ⟨catalog, other⟩ item =
          TypeExpr.ofUse keys ⟨catalog, names⟩ item := ofUse_congr fun id number =>
        agree id (Catalog.mem_numbers_iff.2 (Catalog.mem_numbers_iff.1 number))
      simp only [inner]
    | values item =>
      have inner : TypeExpr.ofUse keys ⟨catalog, other⟩ item =
          TypeExpr.ofUse keys ⟨catalog, names⟩ item := ofUse_congr fun id number =>
        agree id (Catalog.mem_numbers_iff.2 (Catalog.mem_numbers_iff.1 number))
      simp only [inner]
    | declared id => simp only [agree id (Catalog.mem_numbers_iff.2 rfl)]
    | _ => rfl
termination_by sizeOf use

theorem fields_congr {members : List (Member × String)}
    (agree : ∀ entry ∈ members, ∀ id ∈ entry.1.type.numbers,
      NamedCatalog.reference ⟨catalog, other⟩ rules.keys id =
        NamedCatalog.reference ⟨catalog, names⟩ rules.keys id) :
    rules.fields ⟨catalog, other⟩ members = rules.fields ⟨catalog, names⟩ members := by
  induction members with
  | nil => rfl
  | cons entry rest ih =>
    obtain ⟨first, later⟩ := List.forall_mem_cons.1 agree
    simp only [Rules.fields, ofUse_congr first, ih later]

theorem cases_congr {entries : List (Nat × String × String)}
    (agree : ∀ entry ∈ entries, NamedCatalog.reference ⟨catalog, other⟩ rules.keys entry.1 =
      NamedCatalog.reference ⟨catalog, names⟩ rules.keys entry.1) :
    rules.cases ⟨catalog, other⟩ entries = rules.cases ⟨catalog, names⟩ entries := by
  induction entries with
  | nil => rfl
  | cons entry rest ih =>
    obtain ⟨first, later⟩ := List.forall_mem_cons.1 agree
    simp only [Rules.cases, first, ih later]

/-- The names that a body depends on, beside its own, are those of the declarations that its shape
has the numbers of. -/
theorem body_congr {own : Names} {shape : Shape}
    (agree : ∀ id ∈ shape.numbers, NamedCatalog.reference ⟨catalog, other⟩ rules.keys id =
      NamedCatalog.reference ⟨catalog, names⟩ rules.keys id) :
    rules.body ⟨catalog, other⟩ own shape = rules.body ⟨catalog, names⟩ own shape := by
  have inMembers {members : List Member} (part : members.map Member.type = shape.uses) :
      rules.fields ⟨catalog, other⟩ (members.zip own.members) =
        rules.fields ⟨catalog, names⟩ (members.zip own.members) := by
    refine fields_congr fun entry listed id number => agree id (List.mem_append_left _ ?_)
    rw [← part]
    exact List.mem_flatMap.2 ⟨_, List.mem_map_of_mem (List.of_mem_zip listed).1, number⟩
  cases shape with
  | record members additional => simp only [Rules.body, inMembers rfl]
  | enumeration values => rfl
  | union tag variants =>
    have cases : rules.cases ⟨catalog, other⟩ (variants.zip (own.members.zip own.constants)) =
        rules.cases ⟨catalog, names⟩ (variants.zip (own.members.zip own.constants)) :=
      cases_congr fun entry listed =>
        agree _ (List.mem_append_right _ (List.of_mem_zip listed).1)
    simp only [Rules.body, cases]
  | variant parent tagValue members additional =>
    have base := agree parent (List.mem_append_right _ (List.mem_singleton.2 rfl))
    simp only [Rules.body, inMembers rfl, base]
  | wrapper inner =>
    have type : TypeExpr.ofUse rules.keys ⟨catalog, other⟩ inner =
        TypeExpr.ofUse rules.keys ⟨catalog, names⟩ inner :=
      ofUse_congr fun id number => agree id
        (List.mem_append_left _ (List.mem_flatMap.2 ⟨inner, List.mem_singleton.2 rfl, number⟩))
    simp only [Rules.body, type]

/-- What is marked is passed over, so it does not matter what stands beside it. -/
theorem filter_zip_congr {α β : Type} (xs : List α) {ys zs : List β} (marks : List Bool)
    (count : zs.length = ys.length)
    (same : ∀ i : Nat, marks[i]? = some false → zs[i]? = ys[i]?) :
    ((xs.zip zs).zip marks).filter (fun (_, mark) => !mark) =
      ((xs.zip ys).zip marks).filter (fun (_, mark) => !mark) := by
  induction xs generalizing ys zs marks with
  | nil => rfl
  | cons x xs ih =>
    match ys, zs, marks with
    | [], [], _ => rfl
    | _ :: _, _ :: _, [] => rfl
    | y :: ys, z :: zs, mark :: marks =>
      have later := ih marks (by simpa using count) fun i marked => by
        simpa using same (i + 1) (by simpa using marked)
      cases mark with
      | true => simpa using later
      | false =>
        obtain rfl : z = y := by simpa using same 0 rfl
        simpa using later

/-- What the drafts of a language depend on beside names is the catalog alone. -/
def Rules.Nameless (rules : Rules ε μ) : Prop :=
  ∀ (catalog : Catalog) (names other : List Names) (d : Declaration) (own : Names),
    rules.declaration ⟨catalog, other⟩ d own = rules.declaration ⟨catalog, names⟩ d own

end Coincidence

section Closing

variable {ε μ : Type} {rules : Rules ε μ} {schema : Schema} {rootName : String}
  {catalog : Catalog} (mirrors : Mirrors schema rootName catalog) (regular : Regular schema)
  (linked : Linked catalog) (consistent : Consistent schema rootName catalog)

include mirrors linked

theorem not_suppressed_iff {key : String} {id : Nat} (bound : id < catalog.size) :
    ¬ Suppressed key catalog id ↔ (replaced key catalog)[id]? = some false := by
  have count : (replaced key catalog).length = catalog.size := Catalog.length_replaced catalog
  rw [← count] at bound
  rw [← Catalog.mark_eq_true_iff linked (mirrors.ownersFirst linked), List.getElem?_eq_getElem bound]
  simp

theorem left_of_mem_written {names : List Names} {entry : Declaration × Names}
    (member : entry ∈ rules.written ⟨catalog, names⟩) :
    entry.1 ∈ catalog.declarations ∧ names[entry.1.id]? = some entry.2 ∧
      ¬ Suppressed rules.keys.type catalog entry.1.id := by
  obtain ⟨i, declared, named, marked⟩ := mem_written_iff.1 member
  obtain rfl := linked.ids i entry.1 declared
  exact ⟨List.mem_of_getElem? declared, named, (not_suppressed_iff mirrors linked
    (Catalog.lt_size_of_declaration? declared)).2 marked⟩

theorem exists_written_of_left {names : List Names} (count : names.length = catalog.size)
    {id : Nat} {d : Declaration} (declared : catalog.declaration? id = some d)
    (left : ¬ Suppressed rules.keys.type catalog id) :
    ∃ own, names[id]? = some own ∧ (d, own) ∈ rules.written ⟨catalog, names⟩ := by
  have bound := Catalog.lt_size_of_declaration? declared
  obtain ⟨own, named⟩ : ∃ own, names[id]? = some own :=
    ⟨_, List.getElem?_eq_getElem (count.symm ▸ bound)⟩
  exact ⟨own, named,
    mem_written_iff.2 ⟨id, declared, named, (not_suppressed_iff mirrors linked bound).1 left⟩⟩

theorem written_congr {names other : List Names}
    (agree : Agree rules.keys.type catalog names other) :
    rules.written ⟨catalog, other⟩ = rules.written ⟨catalog, names⟩ := by
  refine congrArg (List.map _) (filter_zip_congr _ _ agree.count fun i marked => agree.same i ?_)
  have bound := (List.getElem?_eq_some_iff.1 marked).1
  rw [Catalog.length_replaced] at bound
  exact (not_suppressed_iff mirrors linked bound).2 marked

include regular consistent

/-- A declaration that is left refers alike to all it refers to, whatever suppressed ones are
called. -/
theorem reference_congr {names other : List Names}
    (agree : Agree rules.keys.type catalog names other) {d : Declaration}
    (inside : d ∈ catalog.declarations) (left : ¬ Suppressed rules.keys.type catalog d.id) {id : Nat}
    (number : id ∈ d.shape.numbers) :
    NamedCatalog.reference ⟨catalog, other⟩ rules.keys id =
      NamedCatalog.reference ⟨catalog, names⟩ rules.keys id := by
  obtain ⟨e, declared⟩ : ∃ e, catalog.declaration? id = some e :=
    ⟨_, List.getElem?_eq_getElem (linked.lt_size_of_mem_numbers inside number)⟩
  simp only [NamedCatalog.reference, declared]
  cases hint : e.metadata.hint? rules.keys.type with
  | none =>
    have free := Catalog.not_suppressed_of_mem_numbers mirrors regular linked consistent inside left
      number declared hint
    simp only [NamedCatalog.typeName, agree.same id free]
  | some value =>
    simp only [HintKeys.type?, HintKeys.string?, hint]
    cases value <;> rfl

theorem drafts_congr (nameless : rules.Nameless) {names other : List Names}
    (agree : Agree rules.keys.type catalog names other) :
    rules.drafts ⟨catalog, other⟩ = rules.drafts ⟨catalog, names⟩ := by
  rw [Rules.drafts, Rules.drafts, written_congr mirrors linked agree]
  have each : ∀ entry ∈ rules.written ⟨catalog, names⟩,
      rules.draft ⟨catalog, other⟩ entry.1 entry.2 =
        rules.draft ⟨catalog, names⟩ entry.1 entry.2 := by
    intro entry member
    obtain ⟨inside, -, left⟩ := left_of_mem_written mirrors linked member
    have body : rules.body ⟨catalog, other⟩ entry.2 entry.1.shape =
        rules.body ⟨catalog, names⟩ entry.2 entry.1.shape :=
      body_congr fun id number =>
        reference_congr mirrors regular linked consistent agree inside left number
    rw [Rules.draft, nameless catalog names other, body, Rules.draft]
  generalize rules.written ⟨catalog, names⟩ = entries at each
  induction entries with
  | nil => rfl
  | cons entry rest ih =>
    obtain ⟨first, later⟩ := List.forall_mem_cons.1 each
    simp only [Rules.draftAll, first, ih later]

omit regular consistent in
theorem exists_draft_of_left {names : List Names} (count : names.length = catalog.size)
    {drafts : List (Draft ε μ)} (read : rules.drafts ⟨catalog, names⟩ = .ok drafts) {id : Nat}
    (bound : id < catalog.size) (left : ¬ Suppressed rules.keys.type catalog id) :
    ∃ d ∈ drafts, d.id = id ∧ d.name = NamedCatalog.typeName ⟨catalog, names⟩ id := by
  obtain ⟨target, declared⟩ : ∃ target, catalog.declaration? id = some target :=
    ⟨_, List.getElem?_eq_getElem bound⟩
  obtain ⟨own, named, listed⟩ := exists_written_of_left mirrors linked count declared left
  obtain ⟨i, found⟩ := List.mem_iff_getElem?.1 listed
  obtain ⟨d, there, drafted⟩ := Catalog.getElem?_of_forall₂ (forall₂_of_drafts read) found
  obtain ⟨number, name, -⟩ := draft_eq_ok drafted
  refine ⟨d, List.mem_of_getElem? there, number.trans (linked.ids id target declared), ?_⟩
  rw [name, typeName_eq named]

/-- A name that a draft is written with is that of a declaration that is drafted too. -/
theorem exists_draft_of_mem_referred {names : List Names} (count : names.length = catalog.size)
    {drafts : List (Draft ε μ)} (read : rules.drafts ⟨catalog, names⟩ = .ok drafts)
    {d : Draft ε μ} (member : d ∈ drafts) {text : String} (referred : text ∈ d.body.referred) :
    ∃ e ∈ drafts, e.name = text := by
  obtain ⟨i, found⟩ := List.mem_iff_getElem?.1 member
  obtain ⟨entry, listed, drafted⟩ :=
    Catalog.getElem?_of_forall₂ (forall₂_of_drafts read).flip found
  obtain ⟨inside, -, left⟩ :=
    left_of_mem_written mirrors linked (List.mem_of_getElem? listed)
  obtain ⟨-, -, bodyRead⟩ := draft_eq_ok drafted
  obtain ⟨id, number, known⟩ := reference_of_mem_body (bodyOf_of_body bodyRead) referred
  have bound := linked.lt_size_of_mem_numbers inside number
  obtain ⟨target, declared⟩ : ∃ target, catalog.declaration? id = some target :=
    ⟨_, List.getElem?_eq_getElem bound⟩
  have free := Catalog.not_suppressed_of_mem_numbers mirrors regular linked consistent inside left
    number declared (hint?_eq_none_of_reference known declared)
  obtain ⟨e, there, -, name⟩ := exists_draft_of_left mirrors linked count read bound free
  exact ⟨e, there, name.trans (name_of_reference known).symm⟩

end Closing

/-- A declaration as it is written for a target: its number, its name, the names of declarations that
it is written with, and its lines. -/
structure Piece where
  id : Nat
  name : String
  referred : List String
  lines : List String

def Draft.piece {ε μ : Type} (d : Draft ε μ) (lines : List String) : Piece :=
  ⟨d.id, d.name, d.body.referred, lines⟩

/-- The lines of a class file. -/
def JavaClasses.classFileLines (package : String) (d : Draft Unit Unit) : List String :=
  ["// " ++ notice, "", "package " ++ package ++ ";", ""] ++
    (if (importsOf d.body).isEmpty then []
      else (importsOf d.body).map (fun i => "import " ++ i ++ ";") ++ [""]) ++
    bodyLines d.name d.described d.body

/-- What is written for the declarations of a catalog, in their order. -/
def Target.pieces (t : Target) (c : NamedCatalog) : Except Unsupported (List Piece) :=
  match t.language with
  | .java => do
    return (← JavaClasses.rules.drafts c).map
      fun d => d.piece (JavaClasses.classFileLines t.package d)
  | .rust => do
    return (← RustModule.rules.drafts c).map
      fun d => d.piece (RustModule.itemLines (holdings c.catalog) d)
  | .go => do
    return (← GoPackage.rules.drafts c).map
      fun d => d.piece ("" :: GoPackage.itemLines (holdings c.catalog) d)
  | .typescript => do
    return (← TypeScriptModule.rules.drafts c).map
      fun d => d.piece (TypeScriptModule.itemLines d)

/-- The files of a target are made of the pieces, and of lines that are about no declaration. -/
def Target.Assembles (t : Target) (pieces : List Piece) (files : List File) : Prop :=
  match t.language with
  | .java => ∃ helpers : List JavaClasses.Unsigned,
    files = pieces.map (fun p => ⟨p.name ++ ".java", Text.unlines p.lines⟩) ++
      helpers.map (fun u => JavaClasses.file t.package u.className JavaClasses.helperImports
        (JavaClasses.helperLines u))
  | .rust => files = [⟨"mod.rs",
      Text.unlines ["//! " ++ notice, ""] ++ Text.unlines (pieces.flatMap Piece.lines)⟩]
  | .go => ∃ imports : List String, files = [⟨t.package ++ ".go",
      Text.unlines (["// " ++ notice, "", "package " ++ t.package] ++
        GoPackage.importLines imports ++ pieces.flatMap Piece.lines)⟩]
  | .typescript => files = [⟨"index.ts",
      Text.unlines (("// " ++ notice) :: pieces.flatMap Piece.lines)⟩]

def hintsOf : Language → HintKeys
  | .java => JavaClasses.hints
  | .rust => RustModule.hints
  | .go => GoPackage.hints
  | .typescript => TypeScriptModule.hints

/-- The pieces are those of the declarations that are not suppressed, and every name they are written
with is the name of one of them. -/
structure SelfContained (key : String) (c : NamedCatalog) (pieces : List Piece) : Prop where
  written : ∀ id, (∃ p ∈ pieces, p.id = id) ↔
    id < c.catalog.size ∧ ¬ Suppressed key c.catalog id
  named : ∀ p ∈ pieces, p.name = c.typeName p.id
  closed : ∀ p ∈ pieces, ∀ text ∈ p.referred, ∃ e ∈ pieces, e.name = text
  emitted : ∀ p ∈ pieces, ∀ id < c.catalog.size, c.typeName id ∈ p.referred →
    ∃ e ∈ pieces, e.id = id

section Rendering

variable {schema : Schema} {rootName : String}

theorem typeName_injective {convention : Naming.Convention} {catalog : Catalog} {i j : Nat}
    (inside : i < catalog.size) (other : j < catalog.size)
    (same : (NamedCatalog.ofCatalog convention catalog).typeName i =
      (NamedCatalog.ofCatalog convention catalog).typeName j) : i = j := by
  have named {id : Nat} (bound : id < catalog.size) :
      ((Naming.resolve convention catalog).map Names.type)[id]? =
        some ((NamedCatalog.ofCatalog convention catalog).typeName id) := by
    rw [← Naming.length_resolve convention] at bound
    rw [List.getElem?_map, List.getElem?_eq_getElem bound, Option.map_some, NamedCatalog.typeName,
      NamedCatalog.ofCatalog, List.getElem?_eq_getElem bound, Option.map_some, Option.getD_some]
  exact Catalog.getElem?_inj_of_nodup (Naming.nodup_map_type_resolve convention catalog)
    (named inside) (same ▸ named other)

/-- The drafts of any language, with lines of any kind, are self-contained. -/
theorem selfContained_of_drafts {ε μ : Type} {rules : Rules ε μ} {language : Language}
    {catalog : Catalog} (mirrors : Mirrors schema rootName catalog) (regular : Regular schema)
    (linked : Linked catalog) (consistent : Consistent schema rootName catalog)
    {drafts : List (Draft ε μ)}
    (read : rules.drafts (.ofCatalog (naming language) catalog) = .ok drafts)
    (lines : Draft ε μ → List String) :
    SelfContained rules.keys.type (.ofCatalog (naming language) catalog)
      (drafts.map fun d => d.piece (lines d)) := by
  have count := Naming.length_resolve (naming language) catalog
  have drafted : ∀ d ∈ drafts, d.id < catalog.size ∧ ¬ Suppressed rules.keys.type catalog d.id ∧
      d.name = (NamedCatalog.ofCatalog (naming language) catalog).typeName d.id := by
    intro d member
    obtain ⟨i, found⟩ := List.mem_iff_getElem?.1 member
    obtain ⟨entry, listed, drafted⟩ :=
      Catalog.getElem?_of_forall₂ (forall₂_of_drafts read).flip found
    obtain ⟨own, name, -⟩ := draft_eq_ok drafted
    obtain ⟨inside, named, left⟩ :=
      left_of_mem_written mirrors linked (List.mem_of_getElem? listed)
    rw [own, name]
    exact ⟨Catalog.lt_size_of_declaration? (linked.declaration?_id inside), left,
      (typeName_eq named).symm⟩
  have referred : ∀ d ∈ drafts, ∀ text ∈ d.body.referred, ∃ e ∈ drafts, e.name = text :=
    fun d member text => exists_draft_of_mem_referred mirrors regular linked consistent count read
      member
  constructor
  case written =>
    intro id
    constructor
    · rintro ⟨p, member, rfl⟩
      obtain ⟨d, inside, rfl⟩ := List.mem_map.1 member
      exact ⟨(drafted d inside).1, (drafted d inside).2.1⟩
    · rintro ⟨bound, left⟩
      obtain ⟨d, inside, own, -⟩ := exists_draft_of_left mirrors linked count read bound left
      exact ⟨_, List.mem_map_of_mem inside, own⟩
  case named =>
    intro p member
    obtain ⟨d, inside, rfl⟩ := List.mem_map.1 member
    exact (drafted d inside).2.2
  case closed =>
    intro p member text inText
    obtain ⟨d, inside, rfl⟩ := List.mem_map.1 member
    obtain ⟨e, there, name⟩ := referred d inside text inText
    exact ⟨_, List.mem_map_of_mem there, name⟩
  case emitted =>
    intro p member id bound inText
    obtain ⟨d, inside, rfl⟩ := List.mem_map.1 member
    obtain ⟨e, there, name⟩ := referred d inside _ inText
    obtain ⟨inCatalog, -, own⟩ := drafted e there
    exact ⟨_, List.mem_map_of_mem there,
      typeName_injective inCatalog bound (own.symm.trans name)⟩

theorem nameless_rules :
    JavaClasses.rules.Nameless ∧ RustModule.rules.Nameless ∧ GoPackage.rules.Nameless ∧
      TypeScriptModule.rules.Nameless := by
  refine ⟨?_, ?_, ?_, ?_⟩ <;> exact fun _ _ _ _ _ => rfl

/-- Whatever a schema is rendered for, what is written is closed: it is written for the declarations
that are not suppressed, every name of a declaration that is used in the text of another is the name
of one that is written, and the whole output is the same whatever the suppressed ones are called. -/
theorem selfContained_render {document : Json}
    (read : Schema.ofJson document = .ok schema) (rootName : String) (t : Target)
    (rendered : Rendered)
    (renders : t.render (Catalog.ofSchema schema rootName) = .ok rendered) :
    (∃ pieces, t.pieces (namedFor t.language schema rootName) = .ok pieces ∧
      t.Assembles pieces rendered.files ∧
      SelfContained (hintsOf t.language).type (namedFor t.language schema rootName) pieces) ∧
    ∀ other, Agree (hintsOf t.language).type (Catalog.ofSchema schema rootName)
      (namedFor t.language schema rootName).names other →
        t.files ⟨Catalog.ofSchema schema rootName, other⟩ = .ok rendered.files := by
  have regular := Schema.regular_of_ofJson read
  have linked := Catalog.linked_ofSchema schema rootName
  have mirrors := Catalog.mirrors_ofSchema regular rootName
  have consistent := Catalog.consistent_of_mirrors mirrors linked regular rfl
  have files := files_of_render renders
  obtain ⟨java, rust, go, typescript⟩ := nameless_rules
  obtain ⟨language, package⟩ := t
  cases language with
  | java =>
    obtain ⟨drafts, drafted, same⟩ := (bind_eq_ok ..).1 files
    refine ⟨⟨_, (bind_eq_ok ..).2 ⟨drafts, drafted, rfl⟩, ?_,
      selfContained_of_drafts mirrors regular linked consistent drafted _⟩, fun other agree => ?_⟩
    · refine ⟨JavaClasses.unsignedIn drafts, ?_⟩
      rw [← (pure_eq_ok ..).1 same, List.map_map]
      rfl
    · have congr := drafts_congr mirrors regular linked consistent java agree
      exact (congrArg (· >>= _) congr).trans files
  | rust =>
    obtain ⟨items, itemsRead, same⟩ := (bind_eq_ok ..).1 files
    obtain ⟨drafts, drafted, lines⟩ := (bind_eq_ok ..).1 itemsRead
    refine ⟨⟨_, (bind_eq_ok ..).2 ⟨drafts, drafted, rfl⟩, ?_,
      selfContained_of_drafts mirrors regular linked consistent drafted _⟩, fun other agree => ?_⟩
    · rw [Target.Assembles, ← (pure_eq_ok ..).1 same, ← (pure_eq_ok ..).1 lines,
        List.flatMap_map]
      rfl
    · have congr := drafts_congr mirrors regular linked consistent rust agree
      have items : RustModule.items ⟨Catalog.ofSchema schema rootName, other⟩ = .ok items :=
        (congrArg (· >>= _) congr).trans itemsRead
      exact (bind_eq_ok ..).2 ⟨_, items, same⟩
  | go =>
    obtain ⟨drafts, drafted, same⟩ := (bind_eq_ok ..).1 files
    refine ⟨⟨_, (bind_eq_ok ..).2 ⟨drafts, drafted, rfl⟩, ?_,
      selfContained_of_drafts mirrors regular linked consistent drafted _⟩, fun other agree => ?_⟩
    · refine ⟨GoPackage.imports drafts, ?_⟩
      rw [← (pure_eq_ok ..).1 same, List.flatMap_map]
      rfl
    · have congr := drafts_congr mirrors regular linked consistent go agree
      exact (congrArg (· >>= _) congr).trans files
  | typescript =>
    obtain ⟨drafts, drafted, same⟩ := (bind_eq_ok ..).1 files
    refine ⟨⟨_, (bind_eq_ok ..).2 ⟨drafts, drafted, rfl⟩, ?_,
      selfContained_of_drafts mirrors regular linked consistent drafted _⟩, fun other agree => ?_⟩
    · rw [Target.Assembles, ← (pure_eq_ok ..).1 same, List.flatMap_map]
      rfl
    · have congr := drafts_congr mirrors regular linked consistent typescript agree
      exact (congrArg (· >>= _) congr).trans files

end Rendering

/-- A definition that Rust is to take from elsewhere, with a record in it. -/
def borrowed : Json :=
  .object [
    ("definitions", .object [("point", .object [
      ("metadata", .object [("rustType", .string "geo::Point")]),
      ("properties", .object [("unit", .object [("enum", .array [.string "m"])])])])]),
    ("properties", .object [("at", .object [("elements", .object [("ref", .string "point")])])])]

theorem selfContained_borrowed :
    ∃ schema rendered pieces, Schema.ofJson borrowed = .ok schema ∧
      Target.render ⟨.rust, ""⟩ (Catalog.ofSchema schema "route") = .ok rendered ∧
      Target.Assembles ⟨.rust, ""⟩ pieces rendered.files ∧
      SelfContained "rustType" (namedFor .rust schema "route") pieces ∧
      pieces.map Piece.name = ["Route"] ∧
      ∀ renamed, Target.files ⟨.rust, ""⟩ ⟨Catalog.ofSchema schema "route",
        (namedFor .rust schema "route").names.set 1 renamed⟩ = .ok rendered.files := by
  have found : (Schema.ofJson borrowed).toOption.bind (fun schema =>
      ((Catalog.ofSchema schema "route").declaration? 1).bind fun d =>
        (d.metadata.hint? "rustType").bind fun _ =>
          (Target.render ⟨.rust, ""⟩ (Catalog.ofSchema schema "route")).toOption.bind fun _ =>
            (Target.pieces ⟨.rust, ""⟩ (namedFor .rust schema "route")).toOption.map
              (List.map Piece.name)) = some ["Route"] := by decide +kernel
  obtain ⟨schema, read, found⟩ := Option.bind_eq_some_iff.1 found
  obtain ⟨d, declared, found⟩ := Option.bind_eq_some_iff.1 found
  obtain ⟨hint, hinted, found⟩ := Option.bind_eq_some_iff.1 found
  obtain ⟨rendered, renders, found⟩ := Option.bind_eq_some_iff.1 found
  have read := eq_ok_of_toOption read
  have renders := eq_ok_of_toOption renders
  have point : Suppressed "rustType" (Catalog.ofSchema schema "route") 1 :=
    .hinted declared (by rw [hinted]; rfl)
  obtain ⟨⟨pieces, made, assembles, contained⟩, inert⟩ :=
    selfContained_render read "route" ⟨.rust, ""⟩ rendered renders
  rw [made] at found
  have names : pieces.map Piece.name = ["Route"] := Option.some.inj found
  refine ⟨schema, rendered, pieces, read, renders, assembles, contained, names,
    fun renamed => inert _ ⟨List.length_set, fun id left => ?_⟩⟩
  have other : 1 ≠ id := by
    rintro rfl
    exact left point
  exact List.getElem?_set_ne other

end SchemaBindings.Binding
