import Mathlib.Data.List.Nodup
import SchemaBindings.Keyed

/-! What becomes of keyed lists when their values are changed, and when their entries are put in
another order. In any order, an entry is found by a key that no other entry has. -/

namespace SchemaBindings.Keyed

/-- The same keys with changed values. -/
def mapValues {α β : Type} (f : α → β) (entries : List (String × α)) : List (String × β) :=
  entries.map fun entry => (entry.1, f entry.2)

section Values

variable {α β : Type} (f : α → β)

@[simp] theorem mapValues_nil : mapValues f [] = [] := rfl

@[simp] theorem mapValues_cons (entry : String × α) (rest : List (String × α)) :
    mapValues f (entry :: rest) = (entry.1, f entry.2) :: mapValues f rest := rfl

@[simp] theorem keys_mapValues (entries : List (String × α)) :
    keys (mapValues f entries) = keys entries := by
  simp [keys, mapValues]

@[simp] theorem has_mapValues (entries : List (String × α)) (key : String) :
    has (mapValues f entries) key = has entries key := by
  rw [Bool.eq_iff_iff, has_iff_mem_keys, has_iff_mem_keys, keys_mapValues]

@[simp] theorem lookup_mapValues (entries : List (String × α)) (key : String) :
    (mapValues f entries).lookup key = (entries.lookup key).map f := by
  induction entries with
  | nil => rfl
  | cons entry rest ih =>
    obtain ⟨k, value⟩ := entry
    simp only [mapValues_cons, List.lookup_cons, ih]
    cases key == k <;> rfl

theorem lookup_filter {keep : String → Bool} {key : String} (kept : keep key = true)
    (entries : List (String × α)) :
    (entries.filter fun entry => keep entry.1).lookup key = entries.lookup key := by
  induction entries with
  | nil => rfl
  | cons entry rest ih =>
    obtain ⟨k, value⟩ := entry
    rw [List.filter_cons]
    by_cases same : key = k
    · subst same
      rw [if_pos kept, List.lookup_cons_self, List.lookup_cons_self]
    · rw [List.lookup_cons, beq_false_of_ne same]
      split
      · rw [List.lookup_cons, beq_false_of_ne same]
        exact ih
      · exact ih

theorem increasing_mapValues {entries : List (String × α)} :
    Increasing (mapValues f entries) ↔ Increasing entries := by
  rw [increasing_iff_keys, keys_mapValues, increasing_iff_keys]

theorem insert_mapValues (key : String) (value : α) (entries : List (String × α)) :
    insert key (f value) (mapValues f entries) = mapValues f (insert key value entries) := by
  induction entries with
  | nil => rfl
  | cons entry rest ih =>
    simp only [mapValues_cons, insert, ih]
    split
    · rfl
    · split <;> rfl

theorem ofList_mapValues (entries : List (String × α)) :
    ofList (mapValues f entries) = mapValues f (ofList entries) := by
  suffices all : ∀ sorted : List (String × α),
      (mapValues f entries).foldl (fun sorted e => insert e.1 e.2 sorted) (mapValues f sorted) =
        mapValues f (entries.foldl (fun sorted e => insert e.1 e.2 sorted) sorted) from all []
  induction entries with
  | nil => exact fun _ => rfl
  | cons entry rest ih =>
    intro sorted
    simp only [mapValues_cons, List.foldl_cons, insert_mapValues, ih]

end Values

section Pairs

variable {α β : Type} {R : α → β → Prop}

/-- The values of two lists are related, key by key. -/
def Related (R : α → β → Prop) : List (String × α) → List (String × β) → Prop :=
  List.Forall₂ fun a b => a.1 = b.1 ∧ R a.2 b.2

theorem related_insert {value : α} {other : β} (same : R value other) (key : String)
    {entries : List (String × α)} {others : List (String × β)} (related : Related R entries others) :
    Related R (insert key value entries) (insert key other others) := by
  induction related with
  | nil => exact .cons ⟨rfl, same⟩ .nil
  | @cons a b rest behind pair later ih =>
    obtain ⟨k, v⟩ := a
    obtain ⟨_, w⟩ := b
    obtain ⟨rfl, both⟩ := pair
    simp only [insert]
    split
    · exact .cons ⟨rfl, same⟩ (.cons ⟨rfl, both⟩ later)
    · split
      · exact .cons ⟨rfl, same⟩ later
      · exact .cons ⟨rfl, both⟩ ih

theorem related_ofList {entries : List (String × α)} {others : List (String × β)}
    (related : Related R entries others) : Related R (ofList entries) (ofList others) := by
  suffices all : ∀ (sorted : List (String × α)) (sortedOthers : List (String × β)),
      Related R sorted sortedOthers →
      Related R (entries.foldl (fun sorted e => insert e.1 e.2 sorted) sorted)
        (others.foldl (fun sorted e => insert e.1 e.2 sorted) sortedOthers) from all [] [] .nil
  induction related with
  | nil => exact fun _ _ sorted => sorted
  | @cons a b _ _ pair _ ih =>
    intro sorted sortedOthers before
    obtain ⟨k, v⟩ := a
    obtain ⟨_, w⟩ := b
    obtain ⟨rfl, both⟩ := pair
    exact ih _ _ (related_insert both k before)

end Pairs

section Orders

variable {α : Type}

theorem perm_keys {entries others : List (String × α)} (same : entries.Perm others) :
    (keys entries).Perm (keys others) :=
  same.map Prod.fst

theorem perm_insert {key : String} (value : α) {entries : List (String × α)}
    (fresh : key ∉ keys entries) : (insert key value entries).Perm ((key, value) :: entries) := by
  induction entries with
  | nil => exact .refl _
  | cons entry rest ih =>
    obtain ⟨k, v⟩ := entry
    obtain ⟨different, later⟩ : key ≠ k ∧ key ∉ keys rest := by
      simpa [keys] using fresh
    simp only [insert, if_neg different]
    split
    · exact .refl _
    · exact ((ih later).cons (k, v)).trans (.swap ..)

/-- Sorting entries with distinct keys loses none of them. -/
theorem perm_ofList {entries : List (String × α)} (distinct : (keys entries).Nodup) :
    (ofList entries).Perm entries := by
  suffices all : ∀ sorted : List (String × α), (keys entries ++ keys sorted).Nodup →
      (entries.foldl (fun sorted e => insert e.1 e.2 sorted) sorted).Perm (entries ++ sorted) by
    simpa [keys, ofList] using all [] (by simpa [keys] using distinct)
  clear distinct
  induction entries with
  | nil => exact fun _ _ => .refl _
  | cons entry rest ih =>
    intro sorted distinct
    obtain ⟨fresh, later⟩ := List.nodup_cons.1 distinct
    have placed := perm_insert entry.2 fun member => fresh (List.mem_append_right _ member)
    have moved : (keys rest ++ keys (insert entry.1 entry.2 sorted)).Perm
        (entry.1 :: (keys rest ++ keys sorted)) :=
      ((perm_keys placed).append_left (keys rest)).trans List.perm_middle
    refine (ih _ (moved.nodup_iff.2 distinct)).trans ?_
    exact (placed.append_left rest).trans List.perm_middle

theorem eq_of_increasing {entries others : List (String × α)} (first : Increasing entries)
    (second : Increasing others) (same : entries.Perm others) : entries = others :=
  same.eq_of_pairwise (fun _ _ _ _ less more => absurd more (String.lt_asymm less)) first second

theorem keys_eq_of_increasing {β : Type} {entries : List (String × α)}
    {others : List (String × β)} (first : Increasing entries) (second : Increasing others)
    (same : ∀ key, key ∈ keys entries ↔ key ∈ keys others) : keys entries = keys others := by
  rw [increasing_iff_keys] at first second
  have perm : (keys entries).Perm (keys others) :=
    (List.perm_ext_iff_of_nodup (first.imp String.ne_of_lt) (second.imp String.ne_of_lt)).2 same
  exact perm.eq_of_pairwise (fun _ _ _ _ less more => absurd more (String.lt_asymm less))
    first second

/-- Entries with distinct keys are sorted to one list, whatever their order. -/
theorem ofList_eq_of_perm {entries others : List (String × α)} (distinct : (keys entries).Nodup)
    (same : entries.Perm others) : ofList entries = ofList others := by
  have distinct' : (keys others).Nodup := (perm_keys same).nodup_iff.1 distinct
  exact eq_of_increasing (increasing_ofList entries) (increasing_ofList others)
    ((perm_ofList distinct).trans (same.trans (perm_ofList distinct').symm))

theorem ofList_eq_self {entries : List (String × α)} (increasing : Increasing entries) :
    ofList entries = entries := by
  have distinct : (keys entries).Nodup := (increasing_iff_keys.1 increasing).imp String.ne_of_lt
  exact eq_of_increasing (increasing_ofList entries) increasing (perm_ofList distinct)

theorem ofList_mapValues_ofList {β : Type} (f : α → β) (entries : List (String × α)) :
    ofList (mapValues f (ofList entries)) = mapValues f (ofList entries) :=
  ofList_eq_self ((increasing_mapValues f).2 (increasing_ofList entries))

theorem lookup_of_nodup {key : String} {value : α} {entries : List (String × α)}
    (distinct : (keys entries).Nodup) (member : (key, value) ∈ entries) :
    entries.lookup key = some value := by
  induction entries with
  | nil => cases member
  | cons entry rest ih =>
    obtain ⟨fresh, later⟩ := List.nodup_cons.1 distinct
    rcases List.mem_cons.1 member with same | member
    · subst same
      exact List.lookup_cons_self
    · have inside : key ∈ keys rest := mem_keys.2 ⟨value, member⟩
      have other : (key == entry.1) = false :=
        beq_false_of_ne (ne_of_mem_of_not_mem inside fresh)
      rw [List.lookup_cons, other]
      exact ih later member

end Orders

end SchemaBindings.Keyed
