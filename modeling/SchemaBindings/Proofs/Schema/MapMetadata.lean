import SchemaBindings.Proofs.Keyed
import SchemaBindings.Proofs.Schema.RefChains

/-! Changing the metadata of every node of a schema, and nothing else. -/

namespace SchemaBindings

open Keyed (mapValues)

mutual
def Node.mapMetadata (f : Metadata → Metadata) : Node → Node
  | .mk form nullable metadata => .mk (form.mapMetadata f) nullable (f metadata)

def Form.mapMetadata (f : Metadata → Metadata) : Form → Form
  | .empty => .empty
  | .ref definition => .ref definition
  | .type primitive => .type primitive
  | .enum values => .enum values
  | .elements item => .elements (item.mapMetadata f)
  | .properties required optional additional =>
    .properties (mapEntries f required) (mapEntries f optional) additional
  | .values item => .values (item.mapMetadata f)
  | .discriminator tag mapping => .discriminator tag (mapEntries f mapping)

/-- The nodes of entries with their metadata changed. -/
def mapEntries (f : Metadata → Metadata) : List (String × Node) → List (String × Node)
  | [] => []
  | (name, node) :: rest => (name, node.mapMetadata f) :: mapEntries f rest
end

def Schema.mapMetadata (f : Metadata → Metadata) (schema : Schema) : Schema :=
  ⟨schema.root.mapMetadata f, mapEntries f schema.definitions⟩

section Parts

variable (f : Metadata → Metadata)

theorem mapEntries_eq_mapValues (entries : List (String × Node)) :
    mapEntries f entries = mapValues (Node.mapMetadata f) entries := by
  induction entries with
  | nil => rw [mapEntries, Keyed.mapValues_nil]
  | cons entry rest ih => rw [mapEntries, ih, Keyed.mapValues_cons]

@[simp] theorem Node.form_mapMetadata (node : Node) :
    (node.mapMetadata f).form = node.form.mapMetadata f := by
  cases node
  rw [Node.mapMetadata]
  rfl

@[simp] theorem Node.nullable_mapMetadata (node : Node) :
    (node.mapMetadata f).nullable = node.nullable := by
  cases node
  rw [Node.mapMetadata]
  rfl

@[simp] theorem Node.metadata_mapMetadata (node : Node) :
    (node.mapMetadata f).metadata = f node.metadata := by
  cases node
  rw [Node.mapMetadata]
  rfl

@[simp] theorem Node.isNameable_mapMetadata (node : Node) :
    (node.mapMetadata f).isNameable = node.isNameable := by
  rw [Node.isNameable, Node.isNameable, Node.form_mapMetadata]
  cases node.form <;> rw [Form.mapMetadata]

end Parts

namespace Schema

variable (f : Metadata → Metadata) (definitions : List (String × Node))

/-- A chain of references is the same whatever the metadata of its definitions is. -/
theorem repeatedFrom_mapMetadata (visited : List String) (name : String) :
    repeatedFrom (mapValues (Node.mapMetadata f) definitions) visited name =
      repeatedFrom definitions visited name := by
  fun_induction repeatedFrom definitions visited name with
  | case1 visited name absent =>
    rw [repeatedFrom]
    split
    · rfl
    · rename_i node found
      simp [absent] at found
  | case2 visited name node found target form fresh shorter ih =>
    have mapped : (mapValues (Node.mapMetadata f) definitions).lookup name =
        some (node.mapMetadata f) := by simp [found]
    rw [repeatedFrom_of_lookup mapped, Node.form_mapMetadata, form, Form.mapMetadata]
    simp only [fresh, if_true, ih]
  | case3 visited name node found target form old =>
    have mapped : (mapValues (Node.mapMetadata f) definitions).lookup name =
        some (node.mapMetadata f) := by simp [found]
    rw [repeatedFrom_of_lookup mapped, Node.form_mapMetadata, form, Form.mapMetadata]
    exact if_neg old
  | case4 visited name node found other =>
    have mapped : (mapValues (Node.mapMetadata f) definitions).lookup name =
        some (node.mapMetadata f) := by simp [found]
    rw [repeatedFrom_of_lookup mapped, Node.form_mapMetadata]
    cases form : node.form with
    | ref target => exact absurd form (other target)
    | _ => rw [Form.mapMetadata]

theorem checkRefChains_mapMetadata :
    checkRefChains (mapValues (Node.mapMetadata f) definitions) = checkRefChains definitions := by
  have same : (mapValues (Node.mapMetadata f) definitions).findSome?
      (fun d => repeatedFrom (mapValues (Node.mapMetadata f) definitions) [] d.1) =
      definitions.findSome? (fun d => repeatedFrom definitions [] d.1) := by
    simp only [repeatedFrom_mapMetadata]
    rw [mapValues, List.findSome?_map]
    rfl
  rw [checkRefChains, same, checkRefChains]

end Schema

end SchemaBindings
