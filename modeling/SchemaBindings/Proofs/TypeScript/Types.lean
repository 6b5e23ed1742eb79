import SchemaBindings.Proofs.Binding.Failures
import SchemaBindings.Proofs.Binding.Unhinted
import SchemaBindings.Proofs.TypeScript.Grammar

/-! What TypeScript reads in the text for a type. Brackets behind a text make a list of the last
operand in it only, so that alternatives stand in parentheses first. -/

namespace SchemaBindings.TypeScript

open Binding (NamedCatalog TypeExpr)
open Binding.TypeScriptModule (hints listText naming orNull primitiveText typeText)
open Naming (Capital IsIdentifier)

section Texts

variable {text : String} {tree : TypeTree}

theorem reads_orNull (reads : Reads text tree) (nullable : Bool) :
    Reads (orNull nullable text) (tree.orNull nullable) := by
  cases nullable with
  | false => exact reads
  | true =>
    have split : tokens (text ++ " | null").toList =
        tokens text.toList ++ [.mark '|', .word "null".toList] :=
      tokens_append_of_startLine text rfl (by decide)
    have null : Derives .primary [.word "null".toList] (named "null".toList) := .name rfl
    rw [Reads, orNull, if_pos rfl, split]
    exact .either reads (.primary null)

theorem derives_group (reads : Reads text tree) :
    Derives .primary (tokens ("(" ++ text ++ ")[]").toList) (.array tree) := by
  have behind : tokens (text ++ ")[]").toList =
      tokens text.toList ++ [.mark ')', .bracket false, .mark ']'] :=
    tokens_append_of_startLine text rfl (by decide)
  have split : tokens ("(" ++ text ++ ")[]").toList =
      (.mark '(' :: (tokens text.toList ++ [.mark ')'])) ++ [.bracket false, .mark ']'] := by
    rw [String.append_assoc, String.toList_append, List.cons_append, List.append_assoc]
    exact congrArg (Token.mark '(' :: ·) behind
  rw [split]
  exact .array (.group reads)

theorem tokens_brackets (continues : endsLine text.toList = false) :
    tokens (text ++ "[]").toList = tokens text.toList ++ [.bracket false, .mark ']'] := by
  rw [tokens_append_suffix text rfl, continues]
  rfl

theorem derives_brackets (alone : Derives .primary (tokens text.toList) tree)
    (continues : endsLine text.toList = false) :
    Derives .primary (tokens (text ++ "[]").toList) (.array tree) := by
  rw [tokens_brackets continues]
  exact .array alone

theorem derives_map (reads : Reads text tree) :
    Derives .primary (tokens ("\x7b [key: string]: " ++ text ++ " \x7d").toList) (.map tree) := by
  have behind : tokens (text ++ " \x7d").toList = tokens text.toList ++ [.mark '\x7d'] :=
    tokens_append_of_startLine text rfl (by decide)
  have split : tokens ("\x7b [key: string]: " ++ text ++ " \x7d").toList =
      signature "key".toList ++ (tokens text.toList ++ [.mark '\x7d']) := by
    rw [String.append_assoc, String.toList_append, ← behind]
    rfl
  rw [split]
  exact .map rfl reads

/-- The text is read as the type, and as one operand unless it shows an alternative. -/
structure Writes (text : String) (tree : TypeTree) : Prop where
  reads : Reads text tree
  alone : '|' ∉ text.toList → Derives .primary (tokens text.toList) tree
  continues : endsLine text.toList = false

namespace Writes

theorem of_primary (alone : Derives .primary (tokens text.toList) tree)
    (continues : endsLine text.toList = false) : Writes text tree where
  reads := .intersection (.primary alone)
  alone _ := alone
  continues := continues

theorem of_word (name : isName text.toList = true) (all : text.toList.all isWordChar = true) :
    Writes text (named text.toList) := by
  have each := List.all_eq_true.1 all
  have some' : text.toList ≠ [] := by
    intro empty
    rw [empty] at name
    cases name
  refine of_primary ?_ (endsLine_eq_false fun c member => not_isBlank_of_isWordChar (each c member))
  rw [tokens_word some' each]
  exact .name name

theorem orNull (writes : Writes text tree) (nullable : Bool) :
    Writes (orNull nullable text) (tree.orNull nullable) := by
  refine ⟨reads_orNull writes.reads nullable, fun alone => ?_, ?_⟩
  · cases nullable with
    | false => exact writes.alone alone
    | true => exact absurd (by simp [Binding.TypeScriptModule.orNull]) alone
  · cases nullable with
    | false => exact writes.continues
    | true =>
      rw [Binding.TypeScriptModule.orNull, if_pos rfl, String.toList_append,
        endsLine_append _ (by decide)]
      decide

theorem list (writes : Writes text tree) : Writes (listText text) (.array tree) := by
  rw [listText]
  split
  · refine of_primary (derives_group writes.reads) ?_
    rw [String.toList_append, endsLine_append _ (by decide)]
    decide
  · rename_i alone
    rw [List.contains_iff_mem] at alone
    refine of_primary (derives_brackets (writes.alone alone) writes.continues) ?_
    rw [String.toList_append, endsLine_append _ (by decide)]
    decide

theorem map (writes : Writes text tree) :
    Writes ("\x7b [key: string]: " ++ text ++ " \x7d") (.map tree) := by
  refine of_primary (derives_map writes.reads) ?_
  rw [String.toList_append, endsLine_append _ (by decide)]
  decide

end Writes

end Texts

section Uses

/-- A name of a type that is none of the words that TypeScript has for its own types. -/
def IsTypeName (name : String) : Prop := IsIdentifier name ∧ Capital name

theorem isWordChar_of_isAlphanum {c : Char} (alphanum : c.isAlphanum = true) :
    isWordChar c = true :=
  Naming.of_isAlphanum (P := fun c => isWordChar c = true) (by decide) alphanum

theorem not_isDigit_of_isAlpha {c : Char} (letter : c.isAlpha = true) : c.isDigit = false :=
  Naming.of_isAlpha (P := fun c => c.isDigit = false) (by decide) letter

theorem writes_typeName {name : String} (typeName : IsTypeName name) :
    Writes name (.reference name) := by
  obtain ⟨⟨c, rest, chars, letter, each⟩, capital⟩ := typeName
  have isName : isName name.toList = true := by
    rw [chars]
    simp [TypeScript.isName, not_isDigit_of_isAlpha letter]
  have own : named name.toList = .reference name := by
    have other : predefinedTypes.contains name = false := by
      have none_capital : ∀ word ∈ predefinedTypes, ¬ Capital word := by decide
      rw [Bool.eq_false_iff]
      exact fun member => none_capital name (List.contains_iff_mem.1 member) capital
    rw [named, String.ofList_toList, other]
    rfl
  rw [← own]
  refine .of_word isName (List.all_eq_true.2 fun d member => ?_)
  rw [chars] at member
  rcases List.mem_cons.1 member with rfl | member
  · exact isWordChar_of_isAlphanum (by rw [Char.isAlphanum, letter, Bool.true_or])
  · rcases each d member with alphanum | rfl
    · exact isWordChar_of_isAlphanum alphanum
    · decide

theorem writes_any : Writes "any" (.predefined "any") := .of_word (by decide) (by decide)

theorem writes_primitive (p : Primitive) :
    Writes (primitiveText p) (.predefined (primitiveText p)) := by
  cases p <;> exact .of_word (by decide) (by decide)

/-- The type that is meant by a use, where no hint puts a text in its place. -/
def treeOf (typeName : Nat → String) : TypeUse → TypeTree
  | .mk .anything _ _ _ => .predefined "any"
  | .mk (.primitive p) nullable _ _ => .orNull nullable (.predefined (primitiveText p))
  | .mk (.elements item) nullable _ _ => .orNull nullable (.array (treeOf typeName item))
  | .mk (.values item) nullable _ _ => .orNull nullable (.map (treeOf typeName item))
  | .mk (.declared id) nullable _ _ => .orNull nullable (.reference (typeName id))

variable {c : NamedCatalog} (named : ∀ id < c.catalog.size, IsTypeName (c.typeName id))
  (declared : ∀ d ∈ c.catalog.declarations, d.metadata.hint? hints.type = none)

include named declared

/-- Every level of a type is written as what it means, from what its item is written as. -/
theorem writes_of_ofUse {use : TypeUse}
    (unhinted : ∀ level ∈ use.levels, level.metadata.hint? hints.type = none)
    (inside : ∀ id ∈ use.numbers, id < c.catalog.size) {type : TypeExpr}
    (read : TypeExpr.ofUse hints c use = .ok type) :
    Writes (typeText type) (treeOf c.typeName use) := by
  induction type generalizing use with
  | verbatim text =>
    cases Binding.typeOf_of_ofUse read with
    | verbatim hint =>
      rw [unhinted _ (Catalog.self_mem_levels _)] at hint
      cases hint
    | built _ _ built => cases built
  | anything =>
    cases Binding.typeOf_of_ofUse read with
    | built _ _ built =>
      cases built with
      | anything kind =>
        obtain ⟨_, _, _, _⟩ := use
        obtain rfl := kind
        exact writes_any
  | primitive p _ =>
    cases Binding.typeOf_of_ofUse read with
    | built _ _ built =>
      cases built with
      | primitive kind =>
        obtain ⟨_, nullable, _, _⟩ := use
        obtain rfl := kind
        exact (writes_primitive p).orNull nullable
  | elements container item _ ih =>
    cases Binding.typeOf_of_ofUse read with
    | built _ _ built =>
      cases built with
      | @elements inner _ kind itemRead =>
        rw [Catalog.levels_of_item (.inl kind)] at unhinted
        have written := ih (fun level member => unhinted level (List.mem_cons_of_mem _ member))
          (fun id number => inside id (Catalog.mem_numbers_of_item (.inl kind) number)) itemRead
        obtain ⟨_, nullable, _, _⟩ := use
        obtain rfl := kind
        exact written.list.orNull nullable
  | values container item _ ih =>
    cases Binding.typeOf_of_ofUse read with
    | built _ _ built =>
      cases built with
      | @values inner _ kind itemRead =>
        rw [Catalog.levels_of_item (.inr kind)] at unhinted
        have written := ih (fun level member => unhinted level (List.mem_cons_of_mem _ member))
          (fun id number => inside id (Catalog.mem_numbers_of_item (.inr kind) number)) itemRead
        obtain ⟨_, nullable, _, _⟩ := use
        obtain rfl := kind
        exact written.map.orNull nullable
  | declared id reference _ =>
    have ⟨direct, known⟩ := Binding.direct?_of_ofUse read
    have number := inside id (Catalog.mem_numbers_of_direct direct)
    have text := Binding.text_of_unhinted
      (fun d found => declared d (List.mem_of_getElem? found)) known
    cases Binding.typeOf_of_ofUse read with
    | built _ _ built =>
      cases built with
      | declared kind _ =>
        obtain ⟨_, nullable, _, _⟩ := use
        obtain rfl := kind
        rw [typeText, text]
        exact (writes_typeName (named id number)).orNull nullable

omit named in
theorem exists_type_of_unhinted
    (unhinted : ∀ use ∈ c.catalog.uses, use.metadata.hint? hints.type = none) {use : TypeUse}
    (used : use ∈ c.catalog.uses) : ∃ type, TypeExpr.ofUse hints c use = .ok type := by
  cases read : TypeExpr.ofUse hints c use with
  | ok type => exact ⟨type, rfl⟩
  | error fault =>
    cases Binding.fails_of_ofUse (fun level => Catalog.mem_uses_of_mem_levels used) read with
    | declared inside failed =>
      rw [Binding.HintKeys.type?, Binding.string?_eq_none.2 (declared _ inside)] at failed
      cases failed
    | type inside failed =>
      rw [Binding.HintKeys.type?, Binding.string?_eq_none.2 (unhinted _ inside)] at failed
      cases failed
    | container _ failed => cases failed

end Uses

section Schemas

open Binding (namedFor)

variable {document : Json} {schema : Schema}

/-- The types of a module are named apart from the words for TypeScript's own types. -/
theorem isTypeName_typeName (schema : Schema) (rootName : String) {id : Nat}
    (inside : id < (Catalog.ofSchema schema rootName).size) :
    IsTypeName ((namedFor .typescript schema rootName).typeName id) := by
  rw [← Naming.length_resolve naming] at inside
  have found := List.getElem?_eq_getElem inside
  have listed := List.mem_of_getElem? found
  rw [Binding.typeName_eq (c := namedFor .typescript schema rootName) found]
  exact ⟨(Naming.each_resolve (Naming.regular_naming .typescript).ensures _ _ listed).type.identifier,
    Naming.capital_type_resolve rfl _ listed⟩

/-- A definition named as a type of TypeScript's own, and lists and maps in each other. -/
def nestedLists : Json :=
  .object [
    ("definitions", .object [("any", .object [("properties", .object [])])]),
    ("properties", .object [
      ("free", .object [("elements", .object [("nullable", .bool true)])]),
      ("rows", .object [
        ("elements", .object [
          ("nullable", .bool true),
          ("values", .object [
            ("elements", .object [("nullable", .bool true), ("ref", .string "any")])])]),
        ("nullable", .bool true)])])]

/-- The texts of all types of the schema, each with what it means. -/
def nestedTypes : List (String × TypeTree) :=
  [("any[]", .array (.predefined "any")),
   ("any", .predefined "any"),
   ("(\x7b [key: string]: (Any | null)[] \x7d | null)[] | null",
     .union (.array (.union
       (.map (.array (.union (.reference "Any") (.predefined "null")))) (.predefined "null")))
       (.predefined "null")),
   ("\x7b [key: string]: (Any | null)[] \x7d | null",
     .union (.map (.array (.union (.reference "Any") (.predefined "null")))) (.predefined "null")),
   ("(Any | null)[]", .array (.union (.reference "Any") (.predefined "null"))),
   ("Any | null", .union (.reference "Any") (.predefined "null"))]

end Schemas

end SchemaBindings.TypeScript
