import Mathlib.Data.Finset.Card
import Mathlib.Data.Finset.Dedup
import Mathlib.Data.Finset.Insert
import Mathlib.Data.List.Nodup
import SchemaBindings.Naming.Scope

/-! A scope never hands out a name that is taken. The number that makes a name free is the least
that does. -/

namespace SchemaBindings.Naming.Scope

theorem contains_iff {s : Scope} {name : String} : s.contains name = true ↔ name ∈ s.taken := by
  simp [contains]

theorem numbered_injective (base : String) : Function.Injective (numbered base) := by
  intro i j same
  have tails : i.repr.toList = j.repr.toList := by
    have := congrArg String.toList same
    simpa only [numbered, String.toList_append, List.append_cancel_left_eq] using this
  have digits : Nat.toDigits 10 i = Nat.toDigits 10 j := by
    simpa only [Nat.repr_eq_ofList_toDigits, String.toList_ofList] using tails
  calc
    i = Nat.ofDigitChars 10 (Nat.toDigits 10 i) 0 := Nat.ofDigitChars_ten_toDigits.symm
    _ = j := by rw [digits, Nat.ofDigitChars_ten_toDigits]

theorem numbered_ne_base (base : String) (k : Nat) : numbered base k ≠ base := by
  intro same
  have lengths := congrArg String.length same
  have digits : 0 < k.repr.length := Nat.length_repr_pos
  simp only [numbered, String.length_append] at lengths
  omega

/-- A name with a number behind it ends in a digit. -/
theorem getLast?_numbered (base : String) (k : Nat) :
    ∃ d, (numbered base k).toList.getLast? = some d ∧ d.isDigit = true := by
  have last := List.getLast?_eq_some_getLast (Nat.toDigits_ne_nil (b := 10) (n := k))
  refine ⟨_, ?_, Nat.isDigit_of_mem_toDigits (by decide) (by decide) (List.mem_of_getLast? last)⟩
  simp [numbered, Nat.repr_eq_ofList_toDigits, last]

/-- The taken names, without repetitions. -/
def names (s : Scope) : Finset String := s.taken.toFinset

theorem mem_names {s : Scope} {name : String} : name ∈ s.names ↔ name ∈ s.taken :=
  List.mem_toFinset

/-- A name and the numbers up to the first free one are all taken, so there are fewer of these
numbers than taken names. -/
theorem lt_card_names {s : Scope} {base : String} {k : Nat} (taken : base ∈ s.names)
    (below : ∀ j < k, numbered base j ∈ s.names) : k < s.names.card := by
  let tried := (Finset.range k).image (numbered base)
  have apart : base ∉ tried := by
    intro member
    obtain ⟨j, -, same⟩ := Finset.mem_image.1 member
    exact numbered_ne_base base j same
  have inside : insert base tried ⊆ s.names := by
    refine Finset.insert_subset taken (Finset.image_subset_iff.2 fun j less => ?_)
    exact below j (Finset.mem_range.1 less)
  have count := Finset.card_le_card inside
  rw [Finset.card_insert_of_notMem apart,
    Finset.card_image_of_injective _ (numbered_injective base), Finset.card_range] at count
  exact count

/-- So many numbers as there are taken names cannot all be taken when the name itself is. -/
theorem exists_free_number {s : Scope} {base : String} (taken : base ∈ s.taken) :
    ∃ k < s.taken.length, numbered base k ∉ s.taken := by
  by_contra none
  simp only [not_exists, not_and, not_not] at none
  have count : s.taken.length < s.names.card :=
    lt_card_names (mem_names.2 taken) fun j less => mem_names.2 (none j less)
  exact Nat.not_le_of_lt count (List.toFinset_card_le _)

theorem free_of_not_mem {s : Scope} {base : String} (fresh : base ∉ s.taken) :
    s.free base = base := by
  simp [free, contains, fresh]

/-- A taken name gets the least number that makes it free. -/
theorem free_of_mem {s : Scope} {base : String} (taken : base ∈ s.taken) :
    ∃ k, s.free base = numbered base k ∧ numbered base k ∉ s.taken ∧
      ∀ j < k, numbered base j ∈ s.taken := by
  rw [free, if_pos (contains_iff.2 taken)]
  split
  · rename_i k found
    rw [List.find?_range_eq_some] at found
    obtain ⟨fresh, -, least⟩ := found
    exact ⟨k, rfl, by simpa [contains] using fresh, fun j less => by
      simpa [contains] using least j less⟩
  · rename_i none
    obtain ⟨k, bound, fresh⟩ := exists_free_number taken
    rw [List.find?_eq_none] at none
    exact absurd (none k (List.mem_range.2 bound)) (by simpa [contains] using fresh)

theorem free_not_mem (s : Scope) (base : String) : s.free base ∉ s.taken := by
  by_cases taken : base ∈ s.taken
  · obtain ⟨k, same, fresh, -⟩ := free_of_mem taken
    rwa [same]
  · rwa [free_of_not_mem taken]

section Lists

variable (s : Scope) (bases : List String)

theorem length_claimAll : (s.claimAll bases).1.length = bases.length := by
  induction bases generalizing s with
  | nil => rfl
  | cons base rest ih =>
    simp only [claimAll, List.length_cons]
    rw [ih]

theorem claimAll_append (more : List String) :
    (s.claimAll (bases ++ more)).1 =
      (s.claimAll bases).1 ++ ((s.claimAll bases).2.claimAll more).1 := by
  induction bases generalizing s with
  | nil => rfl
  | cons base rest ih => simp only [List.cons_append, claimAll, ih]

/-- What is taken afterwards are the claimed names beside what was taken before. -/
theorem mem_taken_claimAll (name : String) :
    name ∈ (s.claimAll bases).2.taken ↔ name ∈ (s.claimAll bases).1 ∨ name ∈ s.taken := by
  induction bases generalizing s with
  | nil => simp [claimAll]
  | cons base rest ih =>
    simp only [claimAll, claim, ih, reserve, List.mem_cons]
    tauto

theorem claimAll_not_mem (name : String) (claimed : name ∈ (s.claimAll bases).1) :
    name ∉ s.taken := by
  induction bases generalizing s with
  | nil => cases claimed
  | cons base rest ih =>
    simp only [claimAll, claim, List.mem_cons] at claimed
    rcases claimed with rfl | claimed
    · exact free_not_mem s base
    · exact fun member => ih _ claimed (List.mem_cons_of_mem _ member)

theorem free_eq (s : Scope) (base : String) :
    s.free base = base ∨ ∃ k, s.free base = numbered base k := by
  by_cases taken : base ∈ s.taken
  · obtain ⟨k, same, -⟩ := free_of_mem taken
    exact .inr ⟨k, same⟩
  · exact .inl (free_of_not_mem taken)

/-- Each name is its base, alone or with a number behind it. -/
theorem getElem?_claimAll {s : Scope} {bases : List String} {i : Nat} {name : String}
    (claimed : (s.claimAll bases).1[i]? = some name) :
    ∃ base, bases[i]? = some base ∧ (name = base ∨ ∃ k, name = numbered base k) := by
  induction bases generalizing s i with
  | nil => simp [claimAll] at claimed
  | cons base rest ih =>
    cases i with
    | zero =>
      simp only [claimAll, claim, List.getElem?_cons_zero, Option.some.injEq] at claimed
      exact ⟨base, rfl, claimed ▸ free_eq s base⟩
    | succ i => exact ih claimed

/-- What holds of every base, and stays when a number is put behind, holds of every name. -/
theorem forall_claimAll {P : String → Prop} {s : Scope} {bases : List String}
    (stays : ∀ base k, P base → P (numbered base k)) (each : ∀ base ∈ bases, P base) :
    ∀ name ∈ (s.claimAll bases).1, P name := by
  intro name claimed
  obtain ⟨i, found⟩ := List.mem_iff_getElem?.1 claimed
  obtain ⟨base, listed, rfl | ⟨k, rfl⟩⟩ := getElem?_claimAll found
  · exact each name (List.mem_of_getElem? listed)
  · exact stays base k (each base (List.mem_of_getElem? listed))

/-- Names that are claimed one after the other are distinct. -/
theorem nodup_claimAll : (s.claimAll bases).1.Nodup := by
  induction bases generalizing s with
  | nil => exact List.nodup_nil
  | cons base rest ih =>
    refine List.nodup_cons.2 ⟨fun again => ?_, ih _⟩
    exact claimAll_not_mem _ rest _ again List.mem_cons_self

theorem mem_taken_foldl_reserve (names : List String) (name : String) :
    name ∈ (names.foldl reserve s).taken ↔ name ∈ names ∨ name ∈ s.taken := by
  induction names generalizing s with
  | nil => simp
  | cons first rest ih =>
    simp only [List.foldl_cons, ih, reserve, List.mem_cons]
    tauto

end Lists

end SchemaBindings.Naming.Scope
