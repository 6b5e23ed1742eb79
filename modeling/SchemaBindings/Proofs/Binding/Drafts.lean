import Mathlib.Data.List.Flatten
import SchemaBindings.Binding.Containment
import SchemaBindings.Binding.Draft
import SchemaBindings.Proofs.Catalog.Uses
import SchemaBindings.Proofs.Naming.Distinct
import SchemaBindings.Proofs.Outcome

/-! Which declaration a draft is of, and what its types come from. The form of a use says what its
type is, and its metadata may put a text in the place of that. A reference that is a name is the name
of a declaration that the drafted one holds. -/

namespace SchemaBindings

def TypeKind.hasItems : TypeKind → Bool
  | .elements _ => true
  | .values _ => true
  | _ => false

namespace Binding

section Hints

variable {keys : HintKeys} {metadata : Metadata} {here : Pointer}

theorem string?_eq_some {key text : String} :
    keys.string? key metadata here = .ok (some text) ↔
      metadata.hint? key = some (.string text) := by
  constructor
  · intro read
    unfold HintKeys.string? at read
    split at read
    · cases read
    · rename_i found
      cases read
      exact found
    · cases read
  · intro found
    rw [HintKeys.string?, found]

theorem string?_eq_none {key : String} :
    keys.string? key metadata here = .ok none ↔ metadata.hint? key = none := by
  constructor
  · intro read
    unfold HintKeys.string? at read
    split at read
    · assumption
    · cases read
    · cases read
  · intro found
    rw [HintKeys.string?, found]

theorem hint?_of_container? {hasItems : Bool} {text : String}
    (read : keys.container? hasItems metadata here = .ok (some text)) :
    ∃ key ∈ keys.container, metadata.hint? key = some (.string text) := by
  unfold HintKeys.container? at read
  split at read
  · cases read
  · rename_i key own
    split at read
    · cases read
    · cases read
    · rename_i found
      split at read
      · cases read
        exact ⟨key, own, string?_eq_some.1 found⟩
      · cases read

theorem container?_of_unhinted {hasItems : Bool} {container : Option String}
    (held : keys.container? hasItems metadata here = .ok container)
    (unhinted : ∀ key ∈ keys.container, metadata.hint? key = none) : container = none := by
  cases container with
  | none => rfl
  | some text =>
    obtain ⟨key, known, found⟩ := hint?_of_container? held
    rw [unhinted key known] at found
    cases found

end Hints

section References

variable {keys : HintKeys} {c : NamedCatalog}

theorem name_of_reference {id : Nat} {text : String}
    (known : c.reference keys id = .ok (.name text)) : text = c.typeName id := by
  unfold NamedCatalog.reference at known
  split at known
  · cases known
    rfl
  · obtain ⟨hint, -, known⟩ := (bind_eq_ok ..).1 known
    split at known
    · cases known
    · cases known
      rfl

/-- How a type follows from the form of its use, its container known. -/
inductive BuiltFrom (keys : HintKeys) (c : NamedCatalog) (use : TypeUse)
    (container : Option String) : TypeExpr → Prop
  | anything (kind : use.kind = .anything) : BuiltFrom keys c use container .anything
  | primitive {p : Primitive} (kind : use.kind = .primitive p) :
      BuiltFrom keys c use container (.primitive p use.nullable)
  | elements {item : TypeUse} {type : TypeExpr} (kind : use.kind = .elements item)
      (read : TypeExpr.ofUse keys c item = .ok type) :
      BuiltFrom keys c use container (.elements container type use.nullable)
  | values {item : TypeUse} {type : TypeExpr} (kind : use.kind = .values item)
      (read : TypeExpr.ofUse keys c item = .ok type) :
      BuiltFrom keys c use container (.values container type use.nullable)
  | declared {id : Nat} {reference : Reference} (kind : use.kind = .declared id)
      (known : c.reference keys id = .ok reference) :
      BuiltFrom keys c use container (.declared id reference use.nullable)

/-- How a type follows from a use. With a hint for the type nothing else is read. -/
inductive TypeOf (keys : HintKeys) (c : NamedCatalog) (use : TypeUse) : TypeExpr → Prop
  | verbatim {text : String} (hint : use.metadata.hint? keys.type = some (.string text)) :
      TypeOf keys c use (.verbatim text)
  | built {container : Option String} {type : TypeExpr}
      (untyped : use.metadata.hint? keys.type = none)
      (held : keys.container? use.kind.hasItems use.metadata use.pointer = .ok container)
      (built : BuiltFrom keys c use container type) : TypeOf keys c use type

theorem typeOf_of_ofUse {use : TypeUse} {type : TypeExpr}
    (read : TypeExpr.ofUse keys c use = .ok type) : TypeOf keys c use type := by
  obtain ⟨kind, nullable, metadata, here⟩ := use
  rw [TypeExpr.ofUse.eq_def] at read
  obtain ⟨hint, hintRead, read⟩ := (bind_eq_ok ..).1 read
  cases hint with
  | some text =>
    cases read
    exact .verbatim (string?_eq_some.1 hintRead)
  | none =>
    have untyped := string?_eq_none.1 hintRead
    cases kind with
    | anything =>
      obtain ⟨container, held, read⟩ := (bind_eq_ok ..).1 read
      cases read
      exact .built untyped held (.anything rfl)
    | primitive p =>
      obtain ⟨container, held, read⟩ := (bind_eq_ok ..).1 read
      cases read
      exact .built untyped held (.primitive rfl)
    | elements item =>
      obtain ⟨container, held, read⟩ := (bind_eq_ok ..).1 read
      obtain ⟨inner, innerRead, read⟩ := (bind_eq_ok ..).1 read
      cases read
      exact .built untyped held (.elements rfl innerRead)
    | values item =>
      obtain ⟨container, held, read⟩ := (bind_eq_ok ..).1 read
      obtain ⟨inner, innerRead, read⟩ := (bind_eq_ok ..).1 read
      cases read
      exact .built untyped held (.values rfl innerRead)
    | declared id =>
      obtain ⟨container, held, read⟩ := (bind_eq_ok ..).1 read
      obtain ⟨reference, known, read⟩ := (bind_eq_ok ..).1 read
      cases read
      exact .built untyped held (.declared rfl known)

theorem ofUse_of_typeOf {use : TypeUse} {type : TypeExpr} (typeOf : TypeOf keys c use type) :
    TypeExpr.ofUse keys c use = .ok type := by
  obtain ⟨kind, nullable, metadata, here⟩ := use
  rw [TypeExpr.ofUse.eq_def]
  refine (bind_eq_ok ..).2 ?_
  cases typeOf with
  | verbatim hint => exact ⟨_, string?_eq_some.2 hint, rfl⟩
  | built untyped held built =>
    refine ⟨none, string?_eq_none.2 untyped, ?_⟩
    cases built with
    | anything own | primitive own =>
      cases own
      exact (bind_eq_ok ..).2 ⟨_, held, rfl⟩
    | elements own read | values own read | declared own read =>
      cases own
      exact (bind_eq_ok ..).2 ⟨_, held, (bind_eq_ok ..).2 ⟨_, read, rfl⟩⟩

theorem direct?_of_ofUse {use : TypeUse} {id : Nat} {reference : Reference} {nullable : Bool}
    (read : TypeExpr.ofUse keys c use = .ok (.declared id reference nullable)) :
    direct? use = some id ∧ c.reference keys id = .ok reference := by
  cases typeOf_of_ofUse read with
  | built _ _ built =>
    cases built with
    | declared kind known => exact ⟨by rw [direct?, kind], known⟩

end References

section Zips

theorem map_fst_zip_sublist {α β : Type} (as : List α) (bs : List β) :
    ((as.zip bs).map Prod.fst).Sublist as := by
  induction as generalizing bs with
  | nil => exact .slnil
  | cons a as ih =>
    cases bs with
    | nil => exact List.nil_sublist _
    | cons b bs => exact (ih bs).cons_cons a

theorem map_snd_zip_sublist {α β : Type} (as : List α) (bs : List β) :
    ((as.zip bs).map Prod.snd).Sublist bs := by
  induction bs generalizing as with
  | nil => simp
  | cons b bs ih =>
    cases as with
    | nil => exact List.nil_sublist _
    | cons a as => exact (ih as).cons_cons b

end Zips

section Drafting

variable {ε μ : Type} {rules : Rules ε μ} {c : NamedCatalog}

/-- How a field follows from a member and its name. -/
structure FieldOf (rules : Rules ε μ) (c : NamedCatalog) (entry : Member × String)
    (f : Field μ) : Prop where
  wireName : f.wireName = entry.1.wireName
  name : f.name = entry.2
  required : f.required = entry.1.required
  described : f.described = entry.1.described
  type : TypeExpr.ofUse rules.keys c entry.1.type = .ok f.type
  extra : rules.member entry.1 = .ok f.extra

theorem forall₂_fields {members : List (Member × String)} {fields : List (Field μ)}
    (read : rules.fields c members = .ok fields) :
    List.Forall₂ (FieldOf rules c) members fields := by
  induction members generalizing fields with
  | nil =>
    cases read
    exact .nil
  | cons entry rest ih =>
    obtain ⟨m, name⟩ := entry
    simp only [Rules.fields, bind_eq_ok, pure_eq_ok] at read
    obtain ⟨type, typeRead, extra, extraRead, later, laterRead, rfl⟩ := read
    exact .cons ⟨rfl, rfl, rfl, rfl, typeRead, extraRead⟩ (ih laterRead)

/-- When all members have names, each has its field. -/
theorem exists_fieldOf {members : List Member} {own : List String} {fields : List (Field μ)}
    (count : own.length = members.length)
    (read : rules.fields c (members.zip own) = .ok fields) {m : Member} (listed : m ∈ members) :
    ∃ name f, FieldOf rules c (m, name) f := by
  rw [← List.map_fst_zip (Nat.le_of_eq count.symm)] at listed
  obtain ⟨entry, paired, rfl⟩ := List.mem_map.1 listed
  obtain ⟨i, found⟩ := List.mem_iff_getElem?.1 paired
  obtain ⟨f, -, fieldOf⟩ := Catalog.getElem?_of_forall₂ (forall₂_fields read) found
  exact ⟨entry.2, f, fieldOf⟩

theorem fieldOf_of_mem_fields {members : List (Member × String)} {fields : List (Field μ)}
    (read : rules.fields c members = .ok fields) {f : Field μ} (member : f ∈ fields) :
    ∃ entry ∈ members, FieldOf rules c entry f := by
  obtain ⟨i, found⟩ := List.mem_iff_getElem?.1 member
  obtain ⟨entry, listed, own⟩ :=
    Catalog.getElem?_of_forall₂ (forall₂_fields read).flip found
  exact ⟨entry, List.mem_of_getElem? listed, own⟩

theorem type_of_mem_fields {members : List (Member × String)} {fields : List (Field μ)}
    (read : rules.fields c members = .ok fields) {f : Field μ} (member : f ∈ fields) :
    ∃ m ∈ members, TypeExpr.ofUse rules.keys c m.1.type = .ok f.type :=
  (fieldOf_of_mem_fields read member).imp fun _ found => ⟨found.1, found.2.type⟩

theorem map_name_fields {members : List (Member × String)} {fields : List (Field μ)}
    (read : rules.fields c members = .ok fields) : fields.map Field.name = members.map (·.2) :=
  Catalog.map_eq_of_forall₂ ((forall₂_fields read).imp fun _ _ own => own.name)

/-- How a case follows from an entry of its union. -/
structure CaseOf (rules : Rules ε μ) (c : NamedCatalog) (entry : Nat × String × String)
    (k : Case) : Prop where
  variant : ∃ d parent members additional, c.catalog.declaration? entry.1 = some d ∧
    d.shape = .variant parent k.tagValue members additional
  reference : c.reference rules.keys entry.1 = .ok k.reference
  names : (k.member, k.constant) = entry.2
  checked : ∃ d, c.catalog.declaration? entry.1 = some d ∧ rules.variant d k.reference = .ok ()

/-- The cases are those of the entries that are variants, in the order of these. -/
theorem forall₂_of_cases {entries : List (Nat × String × String)} {cases : List Case}
    (read : rules.cases c entries = .ok cases) :
    List.Forall₂ (CaseOf rules c)
      (entries.filter fun entry => (Naming.tagValue? c.catalog entry.1).isSome) cases := by
  induction entries generalizing cases with
  | nil =>
    cases read
    exact .nil
  | cons entry rest ih =>
    obtain ⟨id, name, constant⟩ := entry
    have skipped (other : Naming.tagValue? c.catalog id = none)
        (read : rules.cases c rest = .ok cases) :
        List.Forall₂ (CaseOf rules c) (((id, name, constant) :: rest).filter fun entry =>
          (Naming.tagValue? c.catalog entry.1).isSome) cases := by
      rw [List.filter_cons_of_neg (by simp [other])]
      exact ih read
    simp only [Rules.cases] at read
    split at read
    · rename_i d declared
      have shape? : c.catalog.shape? id = some d.shape := by
        rw [Catalog.shape?, declared, Option.map_some]
      split at read
      · rename_i parent tagValue members additional shape
        simp only [bind_eq_ok, pure_eq_ok] at read
        obtain ⟨reference, found, _, checked, others, othersRead, rfl⟩ := read
        have known : Naming.tagValue? c.catalog id = some tagValue := by
          rw [Naming.tagValue?, shape?, shape]
        rw [List.filter_cons_of_pos (by simp [known])]
        exact .cons ⟨⟨d, parent, members, additional, declared, shape⟩, found, rfl, d, declared,
          checked⟩ (ih othersRead)
      · rename_i other
        refine skipped ?_ read
        rw [Naming.tagValue?, shape?]
        split
        · rename_i same
          exact (other _ _ _ _ (Option.some.inj same)).elim
        · rfl
    · rename_i undeclared
      exact skipped (by rw [Naming.tagValue?, Catalog.shape?, undeclared, Option.map_none]) read

theorem caseOf_of_mem_cases {entries : List (Nat × String × String)} {cases : List Case}
    (read : rules.cases c entries = .ok cases) {k : Case} (member : k ∈ cases) :
    ∃ entry ∈ entries, CaseOf rules c entry k := by
  obtain ⟨i, found⟩ := List.mem_iff_getElem?.1 member
  obtain ⟨entry, listed, own⟩ := Catalog.getElem?_of_forall₂ (forall₂_of_cases read).flip found
  exact ⟨entry, (List.mem_filter.1 (List.mem_of_getElem? listed)).1, own⟩

/-- The members for the cases of a union are among those that it has names for. -/
theorem sublist_member_cases {names : Naming.Names} {variants : List Nat} {cases : List Case}
    (read : rules.cases c (variants.zip (names.members.zip names.constants)) = .ok cases) :
    (cases.map Case.member).Sublist names.members := by
  have same := Catalog.map_eq_of_forall₂ (f := fun entry : Nat × String × String => entry.2.1)
    (g := Case.member) ((forall₂_of_cases read).imp fun _ _ own => congrArg Prod.fst own.names)
  have split : (variants.zip (names.members.zip names.constants)).map (fun entry => entry.2.1) =
      ((variants.zip (names.members.zip names.constants)).map Prod.snd).map Prod.fst :=
    (List.map_map ..).symm
  have listed : ((variants.zip (names.members.zip names.constants)).map
      (fun entry => entry.2.1)).Sublist names.members :=
    split ▸ ((map_snd_zip_sublist _ _).map Prod.fst).trans (map_fst_zip_sublist _ _)
  exact same ▸ (List.filter_sublist.map _).trans listed

/-- The types that a body writes for members or for what it wraps. -/
def Body.types : Body μ → List TypeExpr
  | .record fields _ => fields.map Field.type
  | .variant _ _ fields _ => fields.map Field.type
  | .wrapper inner => [inner]
  | _ => []

def Body.references : Body μ → List Reference
  | .union _ cases => cases.map Case.reference
  | _ => []

/-- The union that a variant belongs to. -/
def Body.base? : Body μ → Option Reference
  | .variant base _ _ _ => some base
  | _ => none

/-- How the body of a draft follows from the shape of its declaration. -/
inductive BodyOf (rules : Rules ε μ) (c : NamedCatalog) (names : Naming.Names) :
    Shape → Body μ → Prop
  | record {members : List Member} {additional : Bool} {fields : List (Field μ)}
      (read : rules.fields c (members.zip names.members) = .ok fields) :
      BodyOf rules c names (.record members additional) (.record fields additional)
  | enumeration {values : List EnumValue} :
      BodyOf rules c names (.enumeration values) (.enumeration
        ((values.zip names.constants).map (fun (v, name) => ⟨v.value, name, v.described⟩)))
  | union {tag : String} {variants : List Nat} {cases : List Case}
      (read : rules.cases c (variants.zip (names.members.zip names.constants)) = .ok cases) :
      BodyOf rules c names (.union tag variants) (.union tag cases)
  | variant {parent : Nat} {tagValue : String} {members : List Member} {additional : Bool}
      {base : Reference} {fields : List (Field μ)}
      (known : c.reference rules.keys parent = .ok base)
      (read : rules.fields c (members.zip names.members) = .ok fields) :
      BodyOf rules c names (.variant parent tagValue members additional)
        (.variant base tagValue fields additional)
  | wrapper {inner : TypeUse} {type : TypeExpr}
      (read : TypeExpr.ofUse rules.keys c inner = .ok type) :
      BodyOf rules c names (.wrapper inner) (.wrapper type)

theorem bodyOf_of_body {names : Naming.Names} {shape : Shape} {body : Body μ}
    (read : rules.body c names shape = .ok body) : BodyOf rules c names shape body := by
  cases shape with
  | record members additional =>
    obtain ⟨fields, fieldsRead, same⟩ := (bind_eq_ok ..).1 read
    cases same
    exact .record fieldsRead
  | enumeration values =>
    cases read
    exact .enumeration
  | union tag variants =>
    obtain ⟨cases', casesRead, same⟩ := (bind_eq_ok ..).1 read
    cases same
    exact .union casesRead
  | variant parent tagValue members additional =>
    obtain ⟨base, known, rest⟩ := (bind_eq_ok ..).1 read
    obtain ⟨fields, fieldsRead, same⟩ := (bind_eq_ok ..).1 rest
    cases same
    exact .variant known fieldsRead
  | wrapper inner =>
    obtain ⟨type, typeRead, same⟩ := (bind_eq_ok ..).1 read
    cases same
    exact .wrapper typeRead

/-- Only a union is drafted as one. -/
theorem shape_of_union {names : Naming.Names} {shape : Shape} {tag : String} {cases : List Case}
    (read : rules.body c names shape = .ok (.union tag cases)) :
    ∃ variants, shape = .union tag variants ∧
      rules.cases c (variants.zip (names.members.zip names.constants)) = .ok cases := by
  cases bodyOf_of_body read with
  | @union _ variants _ read => exact ⟨variants, rfl, read⟩

section Held

variable {names : Naming.Names} {shape : Shape} {body : Body μ} {id : Nat} {reference : Reference}
  {nullable : Bool}

theorem direct?_of_mem_fields {members : List Member} {fields : List (Field μ)}
    (read : rules.fields c (members.zip names.members) = .ok fields)
    (member : .declared id reference nullable ∈ fields.map Field.type) :
    id ∈ members.filterMap (fun m => direct? m.type) ∧
      c.reference rules.keys id = .ok reference := by
  obtain ⟨f, inside, same⟩ := List.mem_map.1 member
  obtain ⟨m, listed, typeRead⟩ := type_of_mem_fields read inside
  obtain ⟨direct, found⟩ := direct?_of_ofUse (same ▸ typeRead)
  exact ⟨List.mem_filterMap.2 ⟨m.1, (List.of_mem_zip listed).1, direct⟩, found⟩

/-- What a body names as the type of a member, or wraps, its declaration holds. -/
theorem held_of_mem_types (drafted : rules.body c names shape = .ok body)
    (member : .declared id reference nullable ∈ body.types) :
    id ∈ held shape ∧ c.reference rules.keys id = .ok reference := by
  cases bodyOf_of_body drafted with
  | record read => exact direct?_of_mem_fields read member
  | variant _ read => exact direct?_of_mem_fields read member
  | wrapper read =>
    obtain rfl := List.mem_singleton.1 member
    obtain ⟨direct, found⟩ := direct?_of_ofUse read
    exact ⟨by simp [held, direct], found⟩
  | enumeration => cases member
  | union _ => cases member

/-- What a body names as a case, its declaration has as a variant. -/
theorem variant_of_mem_references (drafted : rules.body c names shape = .ok body)
    (member : reference ∈ body.references) :
    ∃ tag variants, shape = .union tag variants ∧
      ∃ v ∈ variants, c.reference rules.keys v = .ok reference := by
  cases bodyOf_of_body drafted with
  | @union tag variants _ read =>
    obtain ⟨k, inside, rfl⟩ := List.mem_map.1 member
    obtain ⟨entry, listed, case⟩ := caseOf_of_mem_cases read inside
    exact ⟨tag, variants, rfl, entry.1, (List.of_mem_zip listed).1, case.reference⟩
  | _ => cases member

end Held

theorem exists_of_mem_drafts {drafts : List (Draft ε μ)} (read : rules.drafts c = .ok drafts)
    {d : Draft ε μ} (member : d ∈ drafts) :
    ∃ id declaration names, c.catalog.declaration? id = some declaration ∧
      c.names[id]? = some names ∧ rules.draft c declaration names = .ok d := by
  have all {entries : List (Declaration × Naming.Names)} {drafts : List (Draft ε μ)}
      (read : rules.draftAll c entries = .ok drafts) (member : d ∈ drafts) :
      ∃ entry ∈ entries, rules.draft c entry.1 entry.2 = .ok d := by
    induction entries generalizing drafts with
    | nil =>
      cases read
      cases member
    | cons entry rest ih =>
      simp only [Rules.draftAll, bind_eq_ok, pure_eq_ok] at read
      obtain ⟨first, firstRead, later, laterRead, rfl⟩ := read
      rcases List.mem_cons.1 member with rfl | member
      · exact ⟨entry, List.mem_cons_self, firstRead⟩
      · obtain ⟨entry, inside, read⟩ := ih laterRead member
        exact ⟨entry, List.mem_cons_of_mem _ inside, read⟩
  obtain ⟨entry, inside, drafted⟩ := all read member
  obtain ⟨marked, kept, rfl⟩ := List.mem_map.1 inside
  obtain ⟨i, found⟩ := List.mem_iff_getElem?.1 (List.of_mem_zip (List.mem_filter.1 kept).1).1
  obtain ⟨declared, named⟩ := List.getElem?_zip_eq_some.1 found
  exact ⟨i, marked.1.1, marked.1.2, declared, named, drafted⟩

theorem draft_eq_ok {declaration : Declaration} {names : Naming.Names} {d : Draft ε μ}
    (drafted : rules.draft c declaration names = .ok d) :
    d.id = declaration.id ∧ d.name = names.type ∧
      rules.body c names declaration.shape = .ok d.body := by
  obtain ⟨extra, -, drafted⟩ := (bind_eq_ok ..).1 drafted
  obtain ⟨body, read, same⟩ := (bind_eq_ok ..).1 drafted
  cases same
  exact ⟨rfl, rfl, read⟩

theorem extra_of_draft {declaration : Declaration} {names : Naming.Names} {d : Draft ε μ}
    (drafted : rules.draft c declaration names = .ok d) :
    rules.declaration c declaration names = .ok d.extra := by
  obtain ⟨extra, read, drafted⟩ := (bind_eq_ok ..).1 drafted
  obtain ⟨_, -, same⟩ := (bind_eq_ok ..).1 drafted
  cases same
  exact read

/-- What can be read off each draft and is part of what is read off its declaration, can be read off
all drafts and is part of what is read off all declarations. -/
theorem sublist_flatMap_drafts {α : Type} {f : Draft ε μ → List α}
    {g : Declaration × Naming.Names → List α}
    (each : ∀ entry d, rules.draft c entry.1 entry.2 = .ok d → (f d).Sublist (g entry))
    {drafts : List (Draft ε μ)} (read : rules.drafts c = .ok drafts) :
    (drafts.flatMap f).Sublist ((c.catalog.declarations.zip c.names).flatMap g) := by
  have all {entries : List (Declaration × Naming.Names)} {drafts : List (Draft ε μ)}
      (read : rules.draftAll c entries = .ok drafts) :
      (drafts.flatMap f).Sublist (entries.flatMap g) := by
    induction entries generalizing drafts with
    | nil =>
      cases read
      exact .slnil
    | cons entry rest ih =>
      simp only [Rules.draftAll, bind_eq_ok, pure_eq_ok] at read
      obtain ⟨first, firstRead, later, laterRead, rfl⟩ := read
      exact (each entry first firstRead).append (ih laterRead)
  have written : (rules.written c).Sublist (c.catalog.declarations.zip c.names) :=
    (List.filter_sublist.map Prod.fst).trans (map_fst_zip_sublist _ _)
  exact (all read).trans (written.flatMap g)

theorem sublist_map_name_drafts {drafts : List (Draft ε μ)} (read : rules.drafts c = .ok drafts) :
    (drafts.map Draft.name).Sublist (c.names.map Naming.Names.type) := by
  have each : (drafts.flatMap fun d => [d.name]).Sublist
      ((c.catalog.declarations.zip c.names).flatMap fun entry => [entry.2.type]) := by
    refine sublist_flatMap_drafts (fun entry d drafted => ?_) read
    rw [(draft_eq_ok drafted).2.1]
  rw [← List.map_eq_flatMap, ← List.map_eq_flatMap] at each
  refine each.trans ?_
  have own := (map_snd_zip_sublist c.catalog.declarations c.names).map Naming.Names.type
  rwa [List.map_map] at own

end Drafting

end Binding

end SchemaBindings
