import SchemaBindings.Proofs.Binding.MemberFields

/-! A member that may be missing or null has a Go type with a value for that. Lists, maps and
interfaces have one as they are, all else is held through a pointer, for one reason or for several.
A container that a hint asks for stands as it is. -/

namespace SchemaBindings

/-- A member that may be missing, or whose type takes null. -/
def Member.MayBeAbsent (m : Member) : Prop := m.required = false ∨ m.type.nullable = true

/-- No hint puts a text in the place of a member's type, be it on the member or on what the member
refers to. -/
def Member.Unreplaced (key : String) (catalog : Catalog) (m : Member) : Prop :=
  m.type.metadata.hint? key = none ∧ ∀ id d, m.type.kind = .declared id →
    catalog.declaration? id = some d → d.metadata.hint? key = none

namespace Binding.GoPackage

/-- A pointer, a slice, a map or an interface. -/
def Nilable (text : String) : Prop :=
  "*".toList <+: text.toList ∨ "[]".toList <+: text.toList ∨ "map[".toList <+: text.toList ∨
    text = "interface\x7b\x7d"

instance (text : String) : Decidable (Nilable text) :=
  inferInstanceAs (Decidable (_ ∨ _ ∨ _ ∨ _))

def StartsDoubled (text : String) : Prop := "**".toList <+: text.toList

instance (text : String) : Decidable (StartsDoubled text) :=
  inferInstanceAs (Decidable (_ <+: _))

/-- What the text of a type has to be for a member. What a container is, only its hint knows. -/
structure HoldsAbsence (m : Member) (text : String) : Prop where
  nilable : m.MayBeAbsent → m.type.metadata.hint? "goContainer" = none → Nilable text
  single : StartsDoubled text → ∃ container,
    m.type.metadata.hint? "goContainer" = some (.string container) ∧ StartsDoubled container

section Texts

theorem nilable_pointerTo (text : String) : Nilable (pointerTo true text) := by
  rw [pointerTo, if_pos rfl]
  refine .inl ?_
  rw [String.toList_append]
  exact List.prefix_append ..

theorem not_startsDoubled_pointerTo (pointed : Bool) {word : String} (plain : '*' ∉ word.toList) :
    ¬ StartsDoubled (pointerTo pointed word) := by
  intro doubled
  cases pointed with
  | false => exact plain (doubled.subset (by decide))
  | true =>
    -- The second of two asterisks would be in the word.
    rw [StartsDoubled, pointerTo, if_pos rfl, String.toList_append] at doubled
    have second : ['*'] <+: word.toList := by simpa using doubled
    exact plain (second.subset List.mem_cons_self)

/-- Two asterisks before a bracket are in what stands before the bracket. -/
theorem startsDoubled_of_append {container rest : String} (bracket : rest.toList.head? = some '[')
    (doubled : StartsDoubled (container ++ rest)) : StartsDoubled container := by
  obtain ⟨others, inside⟩ := List.head?_eq_some_iff.1 bracket
  simp only [StartsDoubled, String.toList_append, inside] at doubled ⊢
  match chars : container.toList with
  | [] => simp [chars] at doubled
  | [c] => simp [chars] at doubled
  | c :: d :: more => simpa [chars] using doubled

end Texts

section Fields

variable {c : NamedCatalog} {m : Member} {f : Field String} {pointed : Nat → Bool}

theorem fieldType_of_isNilable (nilable : isNilable f.type = true) :
    fieldType pointed f = typeText pointed f.type := by
  simp [fieldType, nilable, pointerTo]

/-- A word that is no list, map or interface has a pointer before it for each reason, but one. -/
theorem fieldType_eq_pointerTo {word : String} {needed : Bool} (plain : '*' ∉ word.toList)
    (text : typeText pointed f.type = pointerTo needed word) (other : isNilable f.type = false) :
    fieldType pointed f = pointerTo (!f.required || needed) word := by
  change pointerTo (!f.required && !("*".isPrefixOf (typeText pointed f.type) || isNilable f.type))
    (typeText pointed f.type) = _
  rw [text, other, Bool.or_false]
  cases needed with
  | true =>
    have started : "*".isPrefixOf (pointerTo true word) = true := by
      refine String.startsWith_string_iff.2 ?_
      rw [pointerTo, if_pos rfl, String.toList_append]
      exact List.prefix_append ..
    rw [started, Bool.not_true, Bool.and_false, Bool.or_true]
    rfl
  | false =>
    have apart : "*".isPrefixOf (pointerTo false word) = false :=
      Bool.eq_false_iff.2 fun started =>
        plain ((String.startsWith_string_iff.1 started).subset (by decide))
    rw [apart, Bool.not_false, Bool.and_true, Bool.or_false]
    rfl

/-- A word behind pointers holds absence once there is a reason for a pointer. -/
theorem holdsAbsence_of_word {word : String} {needed : Bool} (plain : '*' ∉ word.toList)
    (text : typeText pointed f.type = pointerTo needed word) (other : isNilable f.type = false)
    (reason : m.MayBeAbsent → f.required = false ∨ needed = true) :
    HoldsAbsence m (fieldType pointed f) := by
  rw [fieldType_eq_pointerTo plain text other]
  constructor
  case nilable =>
    intro absent _
    have pointer : (!f.required || needed) = true := by
      rw [Bool.or_eq_true, Bool.not_eq_true']
      exact reason absent
    rw [pointer]
    exact nilable_pointerTo word
  case single => exact fun doubled => (not_startsDoubled_pointerTo _ plain doubled).elim

theorem hint?_of_container {metadata : Metadata} {here : Pointer} {hasItems : Bool}
    {container : String} (held : hints.container? hasItems metadata here = .ok (some container)) :
    metadata.hint? "goContainer" = some (.string container) := by
  obtain ⟨key, own, found⟩ := hint?_of_container? held
  obtain rfl := Option.some.inj own
  exact found

theorem holdsAbsence_of_container {container rest : String}
    (bracket : rest.toList.head? = some '[')
    (hint : m.type.metadata.hint? "goContainer" = some (.string container)) :
    HoldsAbsence m (container ++ rest) := by
  constructor
  case nilable =>
    intro _ none
    rw [none] at hint
    cases hint
  case single =>
    exact fun doubled => ⟨container, hint, startsDoubled_of_append bracket doubled⟩

theorem holdsAbsence_of_nilable {text : String} (nilable : Nilable text)
    (single : ¬ StartsDoubled text) : HoldsAbsence m text :=
  ⟨fun _ _ => nilable, fun doubled => (single doubled).elim⟩

/-- The type of a field has a value for absence, whatever form its member has. -/
theorem holdsAbsence_fieldType (field : FieldFor rules c m f)
    (unreplaced : m.Unreplaced "goType" c.catalog) (named : ∀ id, '*' ∉ (c.typeName id).toList)
    (pointed : Nat → Bool) : HoldsAbsence m (fieldType pointed f) := by
  obtain ⟨required, typeOf⟩ := And.intro field.required field.type
  generalize same : f.type = type at typeOf
  have whole (nilable : isNilable type = true) : fieldType pointed f = typeText pointed type := by
    rw [fieldType_of_isNilable (same ▸ nilable), same]
  cases typeOf with
  | verbatim hint =>
    have hint : m.type.metadata.hint? "goType" = some _ := hint
    rw [unreplaced.1] at hint
    cases hint
  | @built container _ _ held built =>
    cases built with
    | anything =>
      rw [whole rfl]
      exact holdsAbsence_of_nilable (by decide : Nilable "interface\x7b\x7d")
        (by decide : ¬ StartsDoubled "interface\x7b\x7d")
    | @primitive p =>
      have plain : '*' ∉ (primitiveText p).toList := by cases p <;> decide
      refine holdsAbsence_of_word plain (by rw [same]; rfl) (by rw [same]; rfl) fun absent => ?_
      exact required ▸ absent
    | @elements item inner =>
      rw [whole rfl]
      cases container with
      | none =>
        exact holdsAbsence_of_nilable (.inr (.inl (by simp [typeText])))
          (by simp [StartsDoubled, typeText])
      | some container =>
        rw [typeText, String.append_assoc, String.append_assoc]
        exact holdsAbsence_of_container (by simp) (hint?_of_container held)
    | @values item inner =>
      rw [whole rfl]
      cases container with
      | none =>
        exact holdsAbsence_of_nilable (.inr (.inr (.inl (by simp [typeText]))))
          (by simp [StartsDoubled, typeText])
      | some container =>
        rw [typeText, String.append_assoc, String.append_assoc]
        exact holdsAbsence_of_container (by simp) (hint?_of_container held)
    | @declared target reference kind known =>
      have own : reference.text = c.typeName target :=
        text_of_unhinted (fun d found => unreplaced.2 target d kind found) known
      refine holdsAbsence_of_word (own ▸ named target) (by rw [same]; rfl) (by rw [same]; rfl)
        fun absent => ?_
      rw [required]
      exact absent.imp id fun nullable => by rw [nullable, Bool.true_or]

end Fields

/-- Entries in a chain, with members of all kinds that may be missing or null. -/
def ledger : Json :=
  .object [
    ("definitions", .object [("entry", .object [
      ("optionalProperties", .object [("next", .object [("ref", .string "entry")])]),
      ("properties", .object [
        ("amount", .object [("type", .string "int32")]),
        ("note", .object [("nullable", .bool true), ("type", .string "string")])])])]),
    ("optionalProperties", .object [
      ("extra", .object []),
      ("tags", .object [("elements", .object [("type", .string "string")])]),
      ("totals", .object [("values", .object [("type", .string "int32")])])]),
    ("properties", .object [
      ("first", .object [("nullable", .bool true), ("ref", .string "entry")])])]

/-- Lists that Go is to hold in containers of its own. -/
def containers : Json :=
  .object [("optionalProperties", .object [
    ("held", .object [
      ("elements", .object [("type", .string "string")]),
      ("metadata", .object [("goContainer", .string "Set")])]),
    ("pointed", .object [
      ("elements", .object [("type", .string "string")]),
      ("metadata", .object [("goContainer", .string "**Set")])])])]

end Binding.GoPackage

end SchemaBindings
