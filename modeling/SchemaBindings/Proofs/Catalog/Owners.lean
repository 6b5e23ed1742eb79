import SchemaBindings.Proofs.Catalog.Growth

/-! Owners come first. A declaration takes its number before anything is declared inside of it, so
along owners the numbers go down, at every depth and for variants too, whatever the schema is. -/

namespace SchemaBindings.Catalog

/-- Each owner has a lesser number than what it owns. -/
def OwnersFirst (catalog : Catalog) : Prop :=
  ∀ d ∈ catalog.declarations, ∀ owner, d.owner = some owner → owner < d.id

/-- Each declaration has an owner, either one `outside` or one that was numbered before it. -/
def OwnedWithin (outside : Nat → Prop) (ds : List Declaration) : Prop :=
  ∀ d ∈ ds, ∃ owner, d.owner = some owner ∧
    (outside owner ∨ ∃ e ∈ ds, e.id = owner ∧ owner < d.id)

section Parts

variable {outside : Nat → Prop} {ds : List Declaration}

theorem OwnedWithin.nil : OwnedWithin outside [] := by
  intro d inside
  cases inside

theorem OwnedWithin.owner_of_mem {all : List Declaration} (owned : OwnedWithin outside ds)
    (part : ds ⊆ all) {d : Declaration} (inside : d ∈ ds) : ∃ owner, d.owner = some owner ∧
      (outside owner ∨ ∃ e ∈ all, e.id = owner ∧ owner < d.id) := by
  obtain ⟨owner, same, above⟩ := owned d inside
  refine ⟨owner, same, above.imp id ?_⟩
  rintro ⟨e, member, before⟩
  exact ⟨e, part member, before⟩

theorem OwnedWithin.append {es : List Declaration} (first : OwnedWithin outside ds)
    (second : OwnedWithin outside es) : OwnedWithin outside (ds ++ es) := by
  intro d inside
  rcases List.mem_append.1 inside with inside | inside
  · exact first.owner_of_mem (List.subset_append_left ds es) inside
  · exact second.owner_of_mem (List.subset_append_right ds es) inside

theorem OwnedWithin.mono {other : Nat → Prop} (owned : OwnedWithin outside ds)
    (weaker : ∀ owner, outside owner → other owner) : OwnedWithin other ds := by
  intro d inside
  obtain ⟨owner, same, above⟩ := owned d inside
  exact ⟨owner, same, above.imp (weaker owner) id⟩

/-- A declaration takes in what it owns, if that was numbered later. -/
theorem OwnedWithin.declare {d : Declaration} {owner : Nat} (own : d.owner = some owner)
    (later : ∀ e ∈ ds, d.id < e.id) (owned : OwnedWithin (· = d.id) ds) :
    OwnedWithin (· = owner) (d :: ds) := by
  intro e inside
  rcases List.mem_cons.1 inside with rfl | inside
  · exact ⟨owner, own, .inl rfl⟩
  · obtain ⟨o, same, here | ⟨f, member, before⟩⟩ := owned e inside
    · subst here
      exact ⟨d.id, same, .inr ⟨d, List.mem_cons_self, rfl, later e inside⟩⟩
    · exact ⟨o, same, .inr ⟨f, List.mem_cons_of_mem _ member, before⟩⟩

end Parts

mutual
theorem owned_useOf (schema : Schema) (owner next : Nat) (path : List String) (here : Pointer)
    (node : Node) : OwnedWithin (· = owner) (useOf schema owner next path here node).2 := by
  cases found : shapeOf? schema next (next + 1) path here node.form node.metadata with
  | some result =>
    obtain ⟨shape, nested⟩ := result
    have ids := (madeShape_of_shapeOf? schema next (next + 1) path here node.form node.metadata
      shape nested found).made.ids
    rw [useOf_nameable found]
    apply OwnedWithin.declare rfl
    · exact fun e inside => le_id_of_mem ids inside
    · exact owned_shapeOf? schema next (next + 1) path here node.form node.metadata shape nested found
  | none =>
    cases form : node.form with
    | elements item =>
      rw [useOf_elements form]
      exact owned_useOf schema owner next path (here.child "elements") item
    | values item =>
      rw [useOf_values form]
      exact owned_useOf schema owner next path (here.child "values") item
    | _ =>
      obtain ⟨_, nullable, metadata⟩ := node
      cases form
      simp only [Node.form, Node.metadata] at found
      unfold useOf
      rw [found]
      exact .nil
termination_by node.size
decreasing_by
  · simp only [size_eq_size_form node, form, Form.size]; omega
  · simp only [size_eq_size_form node, form, Form.size]; omega
  · simp only [size_eq_size_form node]; omega

theorem owned_shapeOf? (schema : Schema) (id next : Nat) (path : List String) (here : Pointer)
    (form : Form) (metadata : Metadata) (shape : Shape) (ds : List Declaration) :
    shapeOf? schema id next path here form metadata = some (shape, ds) →
      OwnedWithin (· = id) ds := by
  unfold shapeOf?
  cases form with
  | enum values =>
    intro found
    cases found
    exact .nil
  | properties required optional additional =>
    intro found
    cases found
    exact owned_membersOf schema id next path here (merge required optional)
  | discriminator tag mapping =>
    intro found
    cases found
    exact owned_variantsOf schema id next path here mapping
  | _ => exact fun found => nomatch found
termination_by form.size
decreasing_by all_goals simp only [Form.size, propertiesSize_merge]; omega

theorem owned_membersOf (schema : Schema) (owner next : Nat) (path : List String) (here : Pointer)
    (properties : List Property) :
    OwnedWithin (· = owner) (membersOf schema owner next path here properties).2 := by
  match properties with
  | [] =>
    rw [membersOf]
    exact .nil
  | p :: rest =>
    rw [membersOf]
    apply OwnedWithin.append
    · exact owned_useOf schema owner next _ _ p.node
    · exact owned_membersOf schema owner _ path here rest
termination_by propertiesSize properties
decreasing_by all_goals simp only [propertiesSize]; omega

theorem owned_variantsOf (schema : Schema) (parent next : Nat) (path : List String)
    (here : Pointer) (entries : List (String × Node)) :
    OwnedWithin (· = parent) (variantsOf schema parent next path here entries).2 := by
  match entries with
  | [] =>
    rw [variantsOf]
    exact .nil
  | (tagValue, node) :: rest =>
    cases form : node.form with
    | properties required optional additional =>
      cases made : membersOf schema next (next + 1) (path ++ [tagValue])
        (here.descend ["mapping", tagValue]) (merge required optional) with
      | mk members nested =>
      have ids := (made_membersOf schema next (next + 1) (path ++ [tagValue])
        (here.descend ["mapping", tagValue]) (merge required optional)).ids
      have owned := owned_membersOf schema next (next + 1) (path ++ [tagValue])
        (here.descend ["mapping", tagValue]) (merge required optional)
      rw [made] at ids owned
      rw [variantsOf_cons form made, ← List.cons_append]
      apply OwnedWithin.append
      · exact .declare rfl (fun e inside => le_id_of_mem ids inside) owned
      · exact owned_variantsOf schema parent _ path here rest
    | _ =>
      obtain ⟨_, nullable, metadata⟩ := node
      cases form
      rw [variantsOf]
      · exact owned_variantsOf schema parent next path here rest
      · simp
termination_by entriesSize entries
decreasing_by
  all_goals simp only [entriesSize, size_eq_size_form node, form, Form.size, propertiesSize_merge]
  all_goals omega
end

theorem owned_topLevel (schema : Schema) (id next : Nat) (name : String) (here : Pointer)
    (node : Node) :
    (topLevel schema id next name here node).1.owner = none ∧
      OwnedWithin (· = id) (topLevel schema id next name here node).2 := by
  unfold topLevel
  cases found : shapeOf? schema id next [name] here node.form node.metadata with
  | some result =>
    exact ⟨rfl, owned_shapeOf? schema id next [name] here node.form node.metadata _ _ found⟩
  | none => exact ⟨rfl, owned_useOf schema id next [name] here node⟩

theorem owned_topLevels (schema : Schema) (id next : Nat)
    (entries : List (String × Pointer × Node)) :
    (∀ d ∈ (topLevels schema id next entries).1, d.owner = none) ∧
      OwnedWithin (· < id + entries.length) (topLevels schema id next entries).2 := by
  induction entries generalizing id next with
  | nil => exact ⟨by simp [topLevels], .nil⟩
  | cons entry rest ih =>
    obtain ⟨name, here, node⟩ := entry
    obtain ⟨top, owned⟩ := owned_topLevel schema id next name here node
    obtain ⟨tops, more⟩ := ih (id + 1) (next + (topLevel schema id next name here node).2.length)
    rw [topLevels]
    constructor
    · exact List.forall_mem_cons.2 ⟨top, tops⟩
    · apply OwnedWithin.append
      · apply owned.mono
        simp
      · apply more.mono
        simp only [List.length_cons]
        omega

/-- In the catalog of a schema the owners come first. -/
theorem ownersFirst_ofSchema (schema : Schema) (rootName : String) :
    OwnersFirst (ofSchema schema rootName) := by
  intro d inside owner owned
  rw [ofSchema_eq] at inside
  obtain ⟨tops, nested⟩ := owned_topLevels schema 0 (schema.definitions.length + 1)
    (topEntries schema rootName)
  rcases List.mem_append.1 inside with inside | inside
  · cases (tops d inside).symm.trans owned
  · obtain ⟨o, same, above⟩ := nested d inside
    cases same.symm.trans owned
    rcases above with top | ⟨e, -, -, before⟩
    · have later : schema.definitions.length + 1 ≤ d.id :=
        le_id_of_mem (madeTop_topLevels schema 0 (schema.definitions.length + 1)
          (topEntries schema rootName)).2.made.ids inside
      rw [length_topEntries] at top
      omega
    · exact before

end SchemaBindings.Catalog
