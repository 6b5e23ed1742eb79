/-! Lists of entries in increasing key order, one entry for a key. Keys are compared by code
point, which for text in UTF-8 is the order of its bytes. -/

namespace SchemaBindings.Keyed

/-- Puts an entry at its place; an entry with the same key gives way. -/
def insert {α : Type} (key : String) (value : α) : List (String × α) → List (String × α)
  | [] => [(key, value)]
  | (k, v) :: rest =>
    if key < k then (key, value) :: (k, v) :: rest
    else if key = k then (key, value) :: rest
    else (k, v) :: insert key value rest

/-- The entries in increasing key order; of equal keys the last one stays. -/
def ofList {α : Type} (entries : List (String × α)) : List (String × α) :=
  entries.foldl (fun sorted e => insert e.1 e.2 sorted) []

def keys {α : Type} (entries : List (String × α)) : List String := entries.map (·.1)

def has {α : Type} (entries : List (String × α)) (key : String) : Bool :=
  entries.any (·.1 == key)

def Increasing {α : Type} (entries : List (String × α)) : Prop :=
  entries.Pairwise (fun a b => a.1 < b.1)

theorem mem_keys {α : Type} {key : String} {entries : List (String × α)} :
    key ∈ keys entries ↔ ∃ value, (key, value) ∈ entries := by
  simp [keys]

@[simp] theorem has_iff_mem_keys {α : Type} {key : String} {entries : List (String × α)} :
    has entries key = true ↔ key ∈ keys entries := by
  simp [has, mem_keys]

theorem mem_of_lookup {α : Type} {key : String} {value : α} {entries : List (String × α)}
    (found : entries.lookup key = some value) : (key, value) ∈ entries := by
  obtain ⟨before, after, rfl, _⟩ := List.lookup_eq_some_iff.1 found
  simp

theorem lookup_of_mem {α : Type} {key : String} {value : α} {entries : List (String × α)}
    (increasing : Increasing entries) (member : (key, value) ∈ entries) :
    entries.lookup key = some value := by
  induction entries with
  | nil => cases member
  | cons head rest ih =>
    obtain ⟨first, later⟩ := List.pairwise_cons.1 increasing
    rcases List.mem_cons.1 member with same | member
    · subst same
      exact List.lookup_cons_self
    · have distinct : (key == head.1) = false :=
        beq_false_of_ne (Ne.symm (String.ne_of_lt (first _ member)))
      rw [List.lookup_cons, distinct]
      exact ih later member

theorem lookup_eq_some_iff_mem {α : Type} {key : String} {value : α}
    {entries : List (String × α)} (increasing : Increasing entries) :
    entries.lookup key = some value ↔ (key, value) ∈ entries :=
  ⟨mem_of_lookup, lookup_of_mem increasing⟩

theorem mem_keys_iff_lookup {α : Type} {key : String} {entries : List (String × α)} :
    key ∈ keys entries ↔ ∃ value, entries.lookup key = some value := by
  rw [← Option.isSome_iff_exists, List.lookup_isSome_iff]
  simp [keys]

theorem lookup_eq_none_iff_keys {α : Type} {key : String} {entries : List (String × α)} :
    entries.lookup key = none ↔ key ∉ keys entries := by
  rw [mem_keys_iff_lookup, ← Option.isSome_iff_exists, Option.not_isSome_iff_eq_none]

theorem increasing_iff_keys {α : Type} {entries : List (String × α)} :
    Increasing entries ↔ (keys entries).Pairwise (· < ·) :=
  List.pairwise_map.symm

theorem mem_of_mem_insert {α : Type} {key : String} {value : α} {e : String × α}
    {entries : List (String × α)} (h : e ∈ insert key value entries) :
    e = (key, value) ∨ e ∈ entries := by
  induction entries with
  | nil => simpa [insert] using h
  | cons head rest ih =>
    obtain ⟨k, v⟩ := head
    simp only [insert] at h
    split at h
    · simpa using h
    · split at h
      · rcases List.mem_cons.1 h with h | h
        · exact .inl h
        · exact .inr (List.mem_cons_of_mem _ h)
      · rcases List.mem_cons.1 h with h | h
        · exact .inr (h ▸ List.mem_cons_self)
        · rcases ih h with h | h
          · exact .inl h
          · exact .inr (List.mem_cons_of_mem _ h)

theorem insert_ne_nil {α : Type} (key : String) (value : α) (entries : List (String × α)) :
    insert key value entries ≠ [] := by
  cases entries with
  | nil => simp [insert]
  | cons head rest =>
    simp only [insert]
    split
    · simp
    · split <;> simp

theorem increasing_insert {α : Type} (key : String) (value : α) {entries : List (String × α)}
    (h : Increasing entries) : Increasing (insert key value entries) := by
  induction entries with
  | nil => simp [insert, Increasing]
  | cons head rest ih =>
    obtain ⟨k, v⟩ := head
    obtain ⟨hk, hrest⟩ := List.pairwise_cons.1 h
    simp only [insert]
    split
    · rename_i hlt
      refine List.pairwise_cons.2 ⟨fun e he => ?_, h⟩
      rcases List.mem_cons.1 he with he | he
      · exact he ▸ hlt
      · exact String.lt_trans hlt (hk e he)
    · split
      · rename_i heq
        exact List.pairwise_cons.2 ⟨fun e he => heq ▸ hk e he, hrest⟩
      · rename_i hlt hne
        refine List.pairwise_cons.2 ⟨fun e he => ?_, ih hrest⟩
        rcases mem_of_mem_insert he with he | he
        · subst he
          rcases String.le_total k key with hle | hle
          · exact Decidable.byContradiction fun hn =>
              hne (String.le_antisymm (String.not_lt.1 hn) hle)
          · exact absurd (Decidable.byContradiction fun hn =>
              hne (String.le_antisymm hle (String.not_lt.1 hn))) hlt
        · exact hk e he

theorem increasing_foldl_insert {α : Type} (entries sorted : List (String × α))
    (h : Increasing sorted) :
    Increasing (entries.foldl (fun sorted e => insert e.1 e.2 sorted) sorted) := by
  induction entries generalizing sorted with
  | nil => exact h
  | cons e rest ih => exact ih _ (increasing_insert e.1 e.2 h)

theorem increasing_ofList {α : Type} (entries : List (String × α)) :
    Increasing (ofList entries) :=
  increasing_foldl_insert entries [] List.Pairwise.nil

theorem ofList_eq_nil {α : Type} {entries : List (String × α)} :
    ofList entries = [] ↔ entries = [] := by
  constructor
  · intro none
    rcases List.eq_nil_or_concat entries with empty | ⟨before, last, rfl⟩
    · exact empty
    · rw [ofList, List.concat_eq_append, List.foldl_append] at none
      exact (insert_ne_nil _ _ _ none).elim
  · rintro rfl
    rfl

end SchemaBindings.Keyed
