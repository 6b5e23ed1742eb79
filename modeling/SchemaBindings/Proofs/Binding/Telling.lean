import SchemaBindings.Proofs.Binding.Unhinted

/-! What entries tell of a draft: its name, and the members, values or variants of its body. In every
language this is what the entries tell that are read back from its lines. -/

namespace SchemaBindings.Binding

open Catalog (Linked)
open Keyed (keys)
open Naming (Capital Names)

namespace Entry

def name? : Entry → Option String
  | .name own => some own
  | _ => none

def slot? : Entry → Option Slot
  | .slot own => some own
  | _ => none

def choice? : Entry → Option (String × String)
  | .choice value constant => some (value, constant)
  | _ => none

def tag? : Entry → Option String
  | .tag wireName => some wireName
  | _ => none

def variant? : Entry → Option (String × String)
  | .variant tagValue type => some (tagValue, type)
  | _ => none

def typed? : Entry → Option (String × String)
  | .typed member type => some (member, type)
  | _ => none

def decoding? : Entry → Option (String × String)
  | .decoding tagValue member => some (tagValue, member)
  | _ => none

def alternatives? : Entry → Option (List String)
  | .alternatives types => some types
  | _ => none

end Entry

/-- The variants that entries decode, each by the type of the member that it is decoded into. -/
def decodedIn (entries : List Entry) : List (String × String) :=
  (entries.filterMap Entry.decoding?).filterMap fun (tagValue, member) =>
    ((entries.filterMap Entry.typed?).lookup member).map (tagValue, ·)

/-- Entries tell a union with this tag and these variants, each a tag value and a type. Go repeats
the tag for each variant that it encodes and once more to decode; TypeScript has only the types in
the union and leaves the rest to the variants. -/
def TellsUnion (language : Language) (tag : String) (variants : List (String × String))
    (entries : List Entry) : Prop :=
  match language with
  | .java | .rust =>
    entries.filterMap Entry.tag? = [tag] ∧ entries.filterMap Entry.variant? = variants
  | .go =>
    entries.filterMap Entry.tag? = List.replicate (variants.length + 1) tag ∧
      entries.filterMap Entry.variant? = variants ∧ decodedIn entries = variants
  | .typescript => entries.filterMap Entry.alternatives? = [variants.map Prod.snd]

/-- The variants of a union by tag value and type. -/
def variantTypes (cases : List Case) : List (String × String) :=
  cases.map fun k => (k.tagValue, k.reference.text)

/-- What entries tell of a draft, when a variant has the slots in `lead` ahead of its own. -/
structure Draft.ToldBy {ε μ : Type} (language : Language) (lead : List Slot) (d : Draft ε μ)
    (entries : List Entry) : Prop where
  name : entries.filterMap Entry.name? = [d.name]
  record : ∀ fields additional, d.body = .record fields additional →
    entries.filterMap Entry.slot? = fields.map Field.slot
  variant : ∀ base tagValue fields additional, d.body = .variant base tagValue fields additional →
    entries.filterMap Entry.slot? = lead ++ fields.map Field.slot
  enumeration : ∀ choices, d.body = .enumeration choices →
    entries.filterMap Entry.choice? = choices.map fun c => (c.value, c.constant)
  union : ∀ tag cases, d.body = .union tag cases → cases ≠ [] →
    TellsUnion language tag (variantTypes cases) entries

theorem toldBy_of_told {ε μ : Type} {language : Language} {lead : List Slot} {d : Draft ε μ}
    {union : String → List Case → List Entry} {wrapped : TypeExpr → List Entry}
    (named : ∀ tag cases, d.body = .union tag cases →
      (union tag cases).filterMap Entry.name? = [d.name])
    (apart : ∀ tag cases, d.body = .union tag cases → cases ≠ [] →
      TellsUnion language tag (variantTypes cases) (union tag cases))
    (unnamed : ∀ inner, (wrapped inner).filterMap Entry.name? = []) :
    d.ToldBy language lead (d.body.told d.name lead union wrapped) where
  name := by
    cases body : d.body with
    | union tag cases => exact named tag cases body
    | wrapper inner => simp [Body.told, Entry.name?, unnamed]
    | _ => simp [Body.told, Entry.name?, Function.comp_def]
  record fields additional body := by
    simp [body, Body.told, Entry.slot?, List.filterMap_cons, Function.comp_def]
  variant base tagValue fields additional body := by
    simp [body, Body.told, Entry.slot?, List.filterMap_cons, Function.comp_def]
  enumeration choices body := by
    simp [body, Body.told, Entry.choice?, List.filterMap_cons, Function.comp_def]
  union tag cases body some := by
    rw [body]
    exact apart tag cases body some

section Languages

theorem JavaClasses.tellsUnion (name tag : String) (cases : List Case) :
    TellsUnion .java tag (variantTypes cases) (unionTold name tag cases) := by
  simp [TellsUnion, unionTold, variantTypes, Entry.tag?, Entry.variant?, List.filterMap_cons,
    Function.comp_def]

theorem RustModule.tellsUnion (name tag : String) (cases : List Case) :
    TellsUnion .rust tag (variantTypes cases) (unionTold name tag cases) := by
  simp [TellsUnion, unionTold, variantTypes, Entry.tag?, Entry.variant?, List.filterMap_cons,
    Function.comp_def]

theorem TypeScriptModule.tellsUnion (name tag : String) {cases : List Case} (some : cases ≠ []) :
    TellsUnion .typescript tag (variantTypes cases) (unionTold name cases) := by
  simp [TellsUnion, unionTold, variantTypes, Entry.alternatives?, List.filterMap_cons,
    Function.comp_def, some]

namespace GoPackage

variable (name tag tagMember : String) (cases : List Case)

theorem tags_unionTold : (unionTold name tag tagMember cases).filterMap Entry.tag? =
    List.replicate (cases.length + 1) tag := by
  simp [unionTold, Entry.tag?, List.filterMap_cons, List.filterMap_flatMap, Function.comp_def,
    List.replicate_succ', ← List.map_eq_flatMap]

theorem variants_unionTold : (unionTold name tag tagMember cases).filterMap Entry.variant? =
    variantTypes cases := by
  simp [unionTold, variantTypes, Entry.variant?, List.filterMap_cons, List.filterMap_flatMap,
    Function.comp_def, ← List.map_eq_flatMap]

theorem typed_unionTold : (unionTold name tag tagMember cases).filterMap Entry.typed? =
    (tagMember, "string") :: cases.map fun k => (k.member, k.reference.text) := by
  simp [unionTold, Entry.typed?, List.filterMap_cons, List.filterMap_flatMap, Function.comp_def]

theorem decodings_unionTold : (unionTold name tag tagMember cases).filterMap Entry.decoding? =
    cases.map fun k => (k.tagValue, k.member) := by
  simp [unionTold, Entry.decoding?, List.filterMap_cons, List.filterMap_flatMap, Function.comp_def]

variable {tagMember cases}

/-- No two members have one name, so the member that a variant is decoded into has one type. -/
theorem decodedIn_unionTold (distinct : (tagMember :: cases.map Case.member).Nodup) :
    decodedIn (unionTold name tag tagMember cases) = variantTypes cases := by
  have types : (keys ((tagMember, "string") ::
      cases.map fun k => (k.member, k.reference.text))).Nodup := by
    simpa [keys, Function.comp_def] using distinct
  rw [decodedIn, decodings_unionTold, typed_unionTold, List.filterMap_map]
  refine (List.filterMap_congr fun k member => ?_).trans (congrFun List.filterMap_eq_map cases)
  have found := Keyed.lookup_of_nodup types
    (List.mem_cons_of_mem _ (List.mem_map.2 ⟨k, member, rfl⟩))
  simp only [Function.comp_apply, found, Option.map_some]

theorem tellsUnion (distinct : (tagMember :: cases.map Case.member).Nodup) :
    TellsUnion .go tag (variantTypes cases) (unionTold name tag tagMember cases) :=
  ⟨by rw [tags_unionTold, variantTypes, List.length_map], variants_unionTold ..,
    decodedIn_unionTold name tag distinct⟩

end GoPackage

end Languages

/-- The slots that the variants of a catalog have ahead of their own. -/
def leadOf (language : Language) (catalog : Catalog) : Shape → List Slot
  | .variant parent tagValue _ _ =>
    if language = .typescript then
      (Naming.tag? catalog parent).toList.map fun tag => ⟨tag, true, some tagValue⟩
    else []
  | _ => []

theorem leadOf_eq_nil {catalog : Catalog} {language : Language} (other : language ≠ .typescript)
    (shape : Shape) :
    leadOf language catalog shape = [] := by
  cases shape with
  | variant => exact if_neg other
  | _ => rfl

section Drafts

variable {c : NamedCatalog} (plain : PlainlyNamed c) {declaration : Declaration} {names : Names}

include plain

theorem JavaClasses.toldBy {drafts : List (Draft Unit Unit)} (read : rules.drafts c = .ok drafts)
    {d : Draft Unit Unit} (member : d ∈ drafts) (shape : Shape) :
    d.ToldBy .java (leadOf .java c.catalog shape)
      (readBack .java (Text.unlines (bodyLines d.name d.described d.body))) := by
  rw [leadOf_eq_nil (by decide), readBack_bodyLines plain read member]
  refine toldBy_of_told (fun tag cases _ => ?_) (fun tag cases _ _ => tellsUnion ..) fun _ => rfl
  simp [unionTold, Entry.name?, List.filterMap_cons, Function.comp_def]

theorem RustModule.toldBy {drafts : List (Draft (List String) Unit)}
    (read : rules.drafts c = .ok drafts) (edges : List (List Nat)) {d : Draft (List String) Unit}
    (member : d ∈ drafts) (shape : Shape) :
    d.ToldBy .rust (leadOf .rust c.catalog shape)
      (readBack .rust (Text.unlines (itemLines edges d))) := by
  rw [leadOf_eq_nil (by decide), readBack_itemLines plain read edges member]
  refine toldBy_of_told (fun tag cases _ => ?_) (fun tag cases _ _ => tellsUnion ..) fun _ => rfl
  simp [unionTold, Entry.name?, List.filterMap_cons, Function.comp_def]

omit plain in
theorem TypeScriptModule.tagSlots_eq_leadOf {d : Draft (Option String) Unit}
    (drafted : rules.draft c declaration names = .ok d) :
    tagSlots d.extra d.body = leadOf .typescript c.catalog declaration.shape := by
  have tagged : variantTag c declaration = .ok d.extra := extra_of_draft drafted
  have bodyOf := bodyOf_of_body (draft_eq_ok drafted).2.2
  unfold variantTag at tagged
  generalize d.body = body at bodyOf
  cases shape : declaration.shape with
  | variant parent tagValue members additional =>
    rw [shape] at bodyOf
    simp only [shape] at tagged
    cases bodyOf with
    | variant known read =>
      rw [leadOf, if_pos rfl, tagSlots]
      split at tagged
      · rename_i tag found
        rw [found, ← Except.ok.inj tagged]
      · cases tagged
  | _ =>
    rw [shape] at bodyOf
    cases bodyOf
    rfl

theorem TypeScriptModule.toldBy {drafts : List (Draft (Option String) Unit)}
    (read : rules.drafts c = .ok drafts) {d : Draft (Option String) Unit} (member : d ∈ drafts)
    (drafted : rules.draft c declaration names = .ok d) :
    d.ToldBy .typescript (leadOf .typescript c.catalog declaration.shape)
      (readBack .typescript (Text.unlines (itemLines d))) := by
  rw [← tagSlots_eq_leadOf drafted, readBack_itemLines plain read member]
  exact toldBy_of_told (fun _ _ _ => rfl) (fun tag cases _ some => tellsUnion _ _ some)
    fun _ => rfl

theorem GoPackage.toldBy (capital : ∀ n ∈ c.names, n.Each Capital)
    {drafts : List (Draft (Option TagField) String)} (read : rules.drafts c = .ok drafts)
    (edges : List (List Nat)) {d : Draft (Option TagField) String} (member : d ∈ drafts)
    (distinct : ∀ tag cases, d.body = .union tag cases →
      ((d.extra.map TagField.member).getD "" :: cases.map Case.member).Nodup) (shape : Shape) :
    d.ToldBy .go (leadOf .go c.catalog shape)
      (readBack .go (Text.unlines ("" :: itemLines edges d))) := by
  rw [leadOf_eq_nil (by decide), readBack_itemLines plain capital read member]
  refine toldBy_of_told (fun tag cases _ => ?_)
    (fun tag cases union _ => tellsUnion _ _ (distinct tag cases union)) fun _ => rfl
  simp [unionTold, Entry.name?, List.filterMap_cons, List.filterMap_flatMap, Function.comp_def]

omit plain in
/-- The member for the tag of a union in Go has a name that no member for a variant has. -/
theorem GoPackage.nodup_members {catalog : Catalog} (linked : Linked catalog)
    {convention : Naming.Convention} {drafts : List (Draft (Option TagField) String)}
    (read : rules.drafts (.ofCatalog convention catalog) = .ok drafts)
    (unhinted : Unhinted catalog) {d : Draft (Option TagField) String} (member : d ∈ drafts)
    {tag : String} {cases : List Case} (union : d.body = .union tag cases) :
    ((d.extra.map TagField.member).getD "" :: cases.map Case.member).Nodup := by
  obtain ⟨id, declaration, names, declared, named, drafted⟩ := exists_of_mem_drafts read member
  obtain ⟨-, -, bodyRead⟩ := draft_eq_ok drafted
  obtain ⟨variants, shape, casesRead⟩ := shape_of_union (union ▸ bodyRead)
  have inside : declaration ∈ catalog.declarations := List.mem_of_getElem? declared
  have declared : catalog.declaration? id = some declaration := declared
  obtain ⟨t, same, tagMember, -, -⟩ := exists_tagField
    (unhinted.declarations _ inside _) shape (extra_of_draft drafted)
  have distinct := Naming.distinctIn_resolve convention catalog linked
    (by rw [Catalog.shape?, declared, Option.map_some]) named
  obtain ⟨-, -, -, own, known, nodup⟩ := distinct.union _ _ shape
  obtain rfl := Option.some.inj (tagMember.symm.trans known)
  rw [same, Option.map_some, Option.getD_some]
  exact nodup.sublist ((sublist_member_cases casesRead).cons_cons _)

end Drafts

end SchemaBindings.Binding
