import SchemaBindings.Proofs.Binding.MemberFields

/-! A field of a Rust struct is an option for one reason or for two, that its member may be missing
and that its type takes null, and it is an option once. -/

namespace SchemaBindings

/-- A member that needs a value for its absence: it may be missing, or its type takes null beside
other values. The empty form is null like anything else. -/
def Member.MayLack (m : Member) : Prop :=
  m.required = false ∨ m.type.nullable = true ∧ m.type.kind ≠ .anything

namespace Binding

namespace TypeExpr

/-- Whether null is added to what a type holds otherwise. -/
def isNullable : TypeExpr → Bool
  | .primitive _ nullable => nullable
  | .elements _ _ nullable => nullable
  | .values _ _ nullable => nullable
  | .declared _ _ nullable => nullable
  | .verbatim _ => false
  | .anything => false

/-- A type without the null that is added to it. -/
def present : TypeExpr → TypeExpr
  | .primitive p _ => .primitive p false
  | .elements container item _ => .elements container item false
  | .values container item _ => .values container item false
  | .declared id reference _ => .declared id reference false
  | type => type

end TypeExpr

namespace RustModule

/-- A text that starts as an option does. -/
def StartsOption (text : String) : Prop := "Option<".toList <+: text.toList

instance (text : String) : Decidable (StartsOption text) :=
  inferInstanceAs (Decidable (_ <+: _))

/-- What the text of a type has to be for a member: an option of what is no option, or no option. -/
structure Optioned (m : Member) (text : String) : Prop where
  option : m.MayLack → ∃ inner, text = "Option<" ++ inner ++ ">" ∧ ¬ StartsOption inner
  bare : ¬ m.MayLack → ¬ StartsOption text

section Fields

theorem typeText_eq_optional (boxed : Nat → Bool) (type : TypeExpr) :
    typeText boxed type = optional type.isNullable (typeText boxed type.present) := by
  cases type <;> rfl

theorem startsOption_optional (text : String) : StartsOption (optional true text) := by
  rw [StartsOption, optional, if_pos rfl, String.append_assoc, String.toList_append]
  exact List.prefix_append ..

/-- The layer for null and the one for absence are one. -/
theorem fieldType_eq_optional {boxed : Nat → Bool} {f : Field Unit}
    (bare : ¬ StartsOption (typeText boxed f.type.present)) :
    fieldType boxed f =
      optional (!f.required || f.type.isNullable) (typeText boxed f.type.present) := by
  have text := typeText_eq_optional boxed f.type
  change optional (!f.required && !"Option<".isPrefixOf (typeText boxed f.type))
    (typeText boxed f.type) = _
  cases nullable : f.type.isNullable with
  | true =>
    rw [nullable] at text
    have started : "Option<".isPrefixOf (typeText boxed f.type) = true :=
      String.startsWith_string_iff.2 (text ▸ startsOption_optional _)
    rw [started, text, Bool.not_true, Bool.and_false, Bool.or_true]
    rfl
  | false =>
    rw [nullable] at text
    have same : typeText boxed f.type = typeText boxed f.type.present := text
    have apart : "Option<".isPrefixOf (typeText boxed f.type.present) = false :=
      Bool.eq_false_iff.2 fun started => bare (String.startsWith_string_iff.1 started)
    rw [same, apart, Bool.not_false, Bool.and_true, Bool.or_false]

end Fields

section Hintless

variable {c : NamedCatalog} {use : TypeUse} {type : TypeExpr}

/-- Without hints the words that types start with are those of the language, and names. -/
theorem not_startsOption_present (typeOf : TypeOf hints c use type)
    (replaced : use.metadata.hint? "rustType" = none)
    (contained : use.metadata.hint? "rustContainer" = none)
    (declared : ∀ d ∈ c.catalog.declarations, d.metadata.hint? "rustType" = none)
    (named : ∀ id, '<' ∉ (c.typeName id).toList) (boxed : Nat → Bool) :
    ¬ StartsOption (typeText boxed type.present) := by
  cases typeOf with
  | verbatim hint =>
    have hint : use.metadata.hint? "rustType" = some _ := hint
    rw [replaced] at hint
    cases hint
  | built _ held built =>
    have listed := container?_of_unhinted held fun key own => Option.some.inj own ▸ contained
    cases built with
    | anything => exact (by decide : ¬ StartsOption "serde_json::Value")
    | @primitive p =>
      have word : ∀ p, ¬ StartsOption (primitiveText p) := by
        intro p
        cases p <;> decide
      exact word p
    | elements => simp [StartsOption, TypeExpr.present, typeText, optional, listed]
    | values => simp [StartsOption, TypeExpr.present, typeText, optional, listed]
    | @declared id reference _ known =>
      have own : reference.text = c.typeName id :=
        text_of_unhinted (fun d found => declared d (List.mem_of_getElem? found)) known
      simp only [StartsOption, TypeExpr.present, typeText, optional, Bool.false_eq_true, if_false]
      split
      · simp
      · intro started
        rw [own] at started
        exact named id (started.subset (by decide))

theorem isNullable_iff (typeOf : TypeOf hints c use type)
    (replaced : use.metadata.hint? "rustType" = none) :
    type.isNullable = true ↔ use.nullable = true ∧ use.kind ≠ .anything := by
  cases typeOf with
  | verbatim hint =>
    have hint : use.metadata.hint? "rustType" = some _ := hint
    rw [replaced] at hint
    cases hint
  | built _ _ built =>
    cases built with
    | _ kind => simp [TypeExpr.isNullable, kind]

theorem optioned_fieldType {m : Member} {f : Field Unit} (field : FieldFor rules c m f)
    (replaced : m.type.metadata.hint? "rustType" = none)
    (contained : m.type.metadata.hint? "rustContainer" = none)
    (declared : ∀ d ∈ c.catalog.declarations, d.metadata.hint? "rustType" = none)
    (named : ∀ id, '<' ∉ (c.typeName id).toList) (boxed : Nat → Bool) :
    Optioned m (fieldType boxed f) := by
  have bare := not_startsOption_present field.type replaced contained declared named boxed
  have lacks : (!f.required || f.type.isNullable) = true ↔ m.MayLack := by
    rw [Bool.or_eq_true, Bool.not_eq_true', isNullable_iff field.type replaced, field.required,
      Member.MayLack]
  rw [fieldType_eq_optional bare]
  constructor
  case option =>
    intro may
    rw [lacks.2 may]
    exact ⟨_, rfl, bare⟩
  case bare =>
    intro never
    rw [Bool.eq_false_iff.2 (mt lacks.1 never)]
    exact bare

end Hintless

/-- A nullable definition with a name that Rust has for itself, and members of all kinds. -/
def choices : Json :=
  .object [
    ("definitions", .object [("option", .object [
      ("nullable", .bool true),
      ("optionalProperties", .object [("next", .object [("ref", .string "option")])])])]),
    ("optionalProperties", .object [("other", .object [
      ("nullable", .bool true), ("type", .string "string")])]),
    ("properties", .object [
      ("any", .object [("nullable", .bool true)]),
      ("chosen", .object [("ref", .string "option")]),
      ("name", .object [("type", .string "string")])])]

end RustModule

end Binding

end SchemaBindings
