import SchemaBindings.Naming.Names
import SchemaBindings.Proofs.Catalog.Links
import SchemaBindings.Proofs.Naming.Claims

/-! All identifiers are distinct in their scopes, for whatever convention names them. -/

namespace SchemaBindings.Naming

open Scope (length_claimAll nodup_claimAll claimAll_not_mem mem_taken_claimAll)

/-- The constants of all enumerations, in the order of the catalog. -/
def enumConstants (declarations : List Declaration) (names : List Names) : List String :=
  (declarations.zip names).flatMap fun (d, n) =>
    match d.shape with
    | .enumeration _ => n.constants
    | _ => []

/-- What the names of one declaration promise, where `tagOf?` gives the tag member of another. -/
structure DistinctIn (tagOf? : Nat → Option String) (shape : Shape) (n : Names) : Prop where
  record : ∀ members additional, shape = .record members additional →
    n.members.length = members.length ∧ n.members.Nodup
  variant : ∀ parent tagValue members additional,
    shape = .variant parent tagValue members additional →
    n.members.length = members.length ∧ n.members.Nodup ∧
      ∃ tagMember, n.tagMember = some tagMember ∧ tagMember ∉ n.members ∧
        tagOf? parent = some tagMember
  union : ∀ tag variants, shape = .union tag variants →
    n.members.length = variants.length ∧ n.constants.length = variants.length ∧
      n.constants.Nodup ∧
      ∃ tagMember, n.tagMember = some tagMember ∧ (tagMember :: n.members).Nodup
  enumeration : ∀ values, shape = .enumeration values →
    n.constants.length = values.length ∧ n.constants.Nodup

/-- What the names of a whole catalog promise. -/
structure Distinct (c : Convention) (catalog : Catalog) (names : List Names) : Prop where
  count : names.length = catalog.size
  types : (names.map Names.type).Nodup
  unreserved : ∀ n ∈ names, n.type ∉ c.reservedTypeNames
  each : ∀ id shape n, catalog.shape? id = some shape → names[id]? = some n →
    DistinctIn (fun other => names[other]?.bind Names.tagMember) shape n
  global : c.constantScope = .global →
    (names.map Names.type ++ enumConstants catalog.declarations names).Nodup ∧
      ∀ constant ∈ enumConstants catalog.declarations names, constant ∉ c.reservedTypeNames

section Resolving

variable (c : Convention) (catalog : Catalog)

theorem type_namesOf (types : Scope) (type : String) (shape : Shape) :
    (namesOf c catalog types type shape).1.type = type := by
  unfold namesOf
  split
  · rfl
  · split <;> rfl
  · rfl
  · split <;> rfl
  · rfl

theorem map_type_namesFrom (types : Scope) (entries : List (Declaration × String)) :
    (namesFrom c catalog types entries).map Names.type = entries.map (·.2) := by
  induction entries generalizing types with
  | nil => rfl
  | cons entry rest ih =>
    obtain ⟨d, type⟩ := entry
    simp only [namesFrom, List.map_cons, type_namesOf, ih]

theorem getElem?_namesFrom (types : Scope) (entries : List (Declaration × String)) (i : Nat) :
    ∃ scope, (namesFrom c catalog types entries)[i]? =
      entries[i]?.map (fun entry => (namesOf c catalog scope entry.2 entry.1.shape).1) := by
  induction entries generalizing types i with
  | nil => exact ⟨types, by simp [namesFrom]⟩
  | cons entry rest ih =>
    cases i with
    | zero => exact ⟨types, by simp [namesFrom]⟩
    | succ i =>
      obtain ⟨scope, same⟩ := ih (namesOf c catalog types entry.2 entry.1.shape).2 i
      exact ⟨scope, by simpa [namesFrom] using same⟩

/-- Among the types, only the constants of enumerations are claimed, and each of them once. -/
theorem enumConstants_namesFrom (scope : c.constantScope = .global) (types : Scope)
    (entries : List (Declaration × String)) :
    (enumConstants (entries.map (·.1)) (namesFrom c catalog types entries)).Nodup ∧
      ∀ constant ∈ enumConstants (entries.map (·.1)) (namesFrom c catalog types entries),
        constant ∉ types.taken := by
  induction entries generalizing types with
  | nil => simp [enumConstants]
  | cons entry rest ih =>
    obtain ⟨d, type⟩ := entry
    simp only [namesFrom, enumConstants, List.map_cons, List.zip_cons_cons, List.flatMap_cons]
      at ih ⊢
    cases shape : d.shape with
    | enumeration values =>
      simp only [namesOf, scope]
      generalize values.map (fun v => c.globalConstantName type v.value) = bases
      obtain ⟨distinct, fresh⟩ := ih (types.claimAll bases).2
      constructor
      · refine List.nodup_append.2 ⟨nodup_claimAll types bases, distinct, ?_⟩
        rintro name claimed _ later rfl
        exact fresh name later ((mem_taken_claimAll types bases name).2 (.inl claimed))
      · intro name member
        rcases List.mem_append.1 member with claimed | later
        · exact claimAll_not_mem types bases name claimed
        · exact fun taken => fresh name later ((mem_taken_claimAll types bases name).2 (.inr taken))
    | record members additional => simpa [namesOf] using ih types
    | union tag variants => simpa [namesOf] using ih types
    | wrapper inner => simpa [namesOf] using ih types
    | variant parent tagValue members additional =>
      cases known : (tag? catalog parent).map c.memberName with
      | none => simpa [namesOf, known] using ih types
      | some tag => simpa [namesOf, known] using ih types

theorem length_memberNames (scope : Scope) (members : List Member) :
    (memberNames c scope members).length = members.length := by
  simp [memberNames, length_claimAll]

theorem nodup_memberNames (scope : Scope) (members : List Member) :
    (memberNames c scope members).Nodup :=
  nodup_claimAll scope _

theorem memberName_not_mem_memberNames (tag : String) (members : List Member) :
    tag ∉ memberNames c (Scope.empty.reserve tag) members :=
  fun claimed => claimAll_not_mem _ _ tag claimed List.mem_cons_self

theorem length_typeNames : (typeNames c catalog).1.length = catalog.size := by
  simp [typeNames, length_claimAll, Catalog.size]

theorem map_type_resolve : (resolve c catalog).map Names.type = (typeNames c catalog).1 := by
  have count := length_typeNames c catalog
  rw [resolve, map_type_namesFrom, List.map_snd_zip]
  exact Nat.le_of_eq count

theorem nodup_map_type_resolve : ((resolve c catalog).map Names.type).Nodup := by
  rw [map_type_resolve]
  exact nodup_claimAll ..

theorem length_resolve : (resolve c catalog).length = catalog.size := by
  rw [← length_typeNames c, ← map_type_resolve, List.length_map]

theorem mem_taken_typeScope (name : String) :
    name ∈ (typeScope c).taken ↔ name ∈ c.reservedTypeNames := by
  simp [typeScope, Scope.mem_taken_foldl_reserve, Scope.empty]

theorem mem_taken_typeNames (name : String) :
    name ∈ (typeNames c catalog).2.taken ↔
      name ∈ (typeNames c catalog).1 ∨ name ∈ c.reservedTypeNames := by
  rw [typeNames, mem_taken_claimAll, mem_taken_typeScope]

theorem getElem?_resolve {id : Nat} {shape : Shape} (found : catalog.shape? id = some shape) :
    ∃ scope type, (resolve c catalog)[id]? = some (namesOf c catalog scope type shape).1 := by
  obtain ⟨d, declared, rfl⟩ := Option.map_eq_some_iff.1 found
  obtain ⟨bound, -⟩ := List.getElem?_eq_some_iff.1 declared
  have named : id < (typeNames c catalog).1.length := by
    rw [length_typeNames]
    exact bound
  obtain ⟨scope, same⟩ := getElem?_namesFrom c catalog (typeNames c catalog).2
    (catalog.declarations.zip (typeNames c catalog).1) id
  have entry : (catalog.declarations.zip (typeNames c catalog).1)[id]? =
      some (d, (typeNames c catalog).1[id]) :=
    List.getElem?_zip_eq_some.2 ⟨declared, List.getElem?_eq_getElem named⟩
  exact ⟨scope, (typeNames c catalog).1[id], by rw [resolve, same, entry, Option.map_some]⟩

theorem tagMember_namesOf_union (types : Scope) (type tag : String) (variants : List Nat) :
    (namesOf c catalog types type (.union tag variants)).1.tagMember = some (c.memberName tag) := by
  have free : Scope.empty.free (c.memberName tag) = c.memberName tag :=
    Scope.free_of_not_mem List.not_mem_nil
  simp [namesOf, Scope.claim, free]

theorem tagMember_resolve {id : Nat} {tag : String} {variants : List Nat}
    (found : catalog.shape? id = some (.union tag variants)) :
    (resolve c catalog)[id]?.bind Names.tagMember = some (c.memberName tag) := by
  obtain ⟨scope, type, same⟩ := getElem?_resolve c catalog found
  rw [same, Option.bind_some, tagMember_namesOf_union]

theorem length_filterMap_tagValue? {variants : List Nat} {parent : Nat}
    (known : ∀ v ∈ variants, ∃ shape, catalog.shape? v = some shape ∧ shape.IsVariantOf parent) :
    (variants.filterMap (tagValue? catalog)).length = variants.length := by
  refine List.filterMap_length_eq_length.2 fun v member => ?_
  obtain ⟨shape, found, tagValue, members, additional, rfl⟩ := known v member
  simp [tagValue?, found]

/-- In a linked catalog, the names of each declaration keep their promise. -/
theorem distinctIn_resolve (linked : catalog.Linked) {id : Nat} {shape : Shape} {n : Names}
    (found : catalog.shape? id = some shape) (named : (resolve c catalog)[id]? = some n) :
    DistinctIn (fun other => (resolve c catalog)[other]?.bind Names.tagMember) shape n := by
  obtain ⟨d, declared, rfl⟩ := Option.map_eq_some_iff.1 found
  have inside : d ∈ catalog.declarations := List.mem_of_getElem? declared
  obtain ⟨scope, type, same⟩ := getElem?_resolve c catalog found
  obtain rfl := Option.some.inj (named.symm.trans same)
  constructor
  case record =>
    intro members additional shape
    rw [shape]
    exact ⟨length_memberNames .., nodup_memberNames ..⟩
  case variant =>
    intro parent tagValue members additional shape
    obtain ⟨_, base, tag, variants, rfl⟩ :=
      linked.parents d inside parent ⟨tagValue, members, additional, shape⟩
    have known : tag? catalog parent = some tag := by simp [tag?, base]
    rw [shape]
    simp only [namesOf, known, Option.map_some]
    exact ⟨length_memberNames .., nodup_memberNames .., c.memberName tag, rfl,
      memberName_not_mem_memberNames c _ _, tagMember_resolve c catalog base⟩
  case union =>
    intro tag variants shape
    have all := length_filterMap_tagValue? catalog (linked.variants d inside tag variants shape)
    rw [shape]
    simp only [namesOf, length_claimAll, List.length_map, all, true_and]
    -- The tag is claimed first, in the scope that the variants are then named in.
    refine ⟨nodup_claimAll .., _, rfl, List.nodup_cons.2 ⟨fun again => ?_, nodup_claimAll ..⟩⟩
    exact claimAll_not_mem _ _ _ again List.mem_cons_self
  case enumeration =>
    intro values shape
    rw [shape]
    simp only [namesOf]
    split
    · exact ⟨by simp [length_claimAll], nodup_claimAll ..⟩
    · exact ⟨by simp [length_claimAll], nodup_claimAll ..⟩

end Resolving

/-- The identifiers of a linked catalog are distinct in their scopes. -/
theorem distinct_of_linked (c : Convention) {catalog : Catalog} (linked : catalog.Linked) :
    Distinct c catalog (resolve c catalog) := by
  constructor
  case count => exact length_resolve c catalog
  case types => exact nodup_map_type_resolve c catalog
  case unreserved =>
    intro n member reserved
    have claimed : n.type ∈ (typeNames c catalog).1 := by
      rw [← map_type_resolve]
      exact List.mem_map_of_mem member
    exact claimAll_not_mem _ _ _ claimed ((mem_taken_typeScope c _).2 reserved)
  case each => exact fun id shape n found named => distinctIn_resolve c catalog linked found named
  case global =>
    intro scope
    obtain ⟨distinct, fresh⟩ := enumConstants_namesFrom c catalog scope (typeNames c catalog).2
      (catalog.declarations.zip (typeNames c catalog).1)
    rw [List.map_fst_zip (Nat.le_of_eq (length_typeNames c catalog).symm)] at distinct fresh
    have apart (constant : String)
        (member : constant ∈ enumConstants catalog.declarations (resolve c catalog)) :
        constant ∉ (resolve c catalog).map Names.type ∧ constant ∉ c.reservedTypeNames := by
      rw [map_type_resolve, ← not_or, ← mem_taken_typeNames]
      exact fresh constant member
    refine ⟨List.nodup_append.2 ⟨nodup_map_type_resolve c catalog, distinct, ?_⟩,
      fun constant member => (apart constant member).2⟩
    rintro name typed _ constant rfl
    exact (apart name constant).1 typed

/-- The identifiers of every catalog are distinct in their scopes, whatever the convention. -/
theorem distinct_resolve (c : Convention) (schema : Schema) (rootName : String) :
    Distinct c (Catalog.ofSchema schema rootName)
      (resolve c (Catalog.ofSchema schema rootName)) :=
  distinct_of_linked c (Catalog.linked_ofSchema schema rootName)

end SchemaBindings.Naming
