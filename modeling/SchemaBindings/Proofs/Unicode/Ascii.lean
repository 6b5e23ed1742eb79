import SchemaBindings.Unicode.Alphanumeric
import SchemaBindings.Unicode.LetterCase

/-! In ASCII the tables of Unicode agree with the letters and digits that are known without a table.
The first entries of each table are those of ASCII; all others start behind it. -/

namespace SchemaBindings.Unicode

/-- What holds of all codes of ASCII holds of its characters. -/
theorem of_ascii {P : Char → Prop} (all : ∀ code < 128, P (Char.ofNat code)) {c : Char}
    (ascii : c.toNat < 128) : P c := by
  have here := all c.toNat ascii
  rwa [Char.ofNat_toNat] at here

theorem ascii_of_isAlphanum {c : Char} (alphanum : c.isAlphanum = true) : c.toNat < 128 := by
  delta Char.isAlphanum Char.isAlpha Char.isUpper Char.isLower Char.isDigit at alphanum
  simp only [Bool.or_eq_true, Bool.and_eq_true, decide_eq_true_eq, UInt32.le_iff_toNat_le,
    ge_iff_le] at alphanum
  change ((65 ≤ c.toNat ∧ c.toNat ≤ 90) ∨ (97 ≤ c.toNat ∧ c.toNat ≤ 122)) ∨
    (48 ≤ c.toNat ∧ c.toNat ≤ 57) at alphanum
  omega

section Tables

theorem Run.first_le_of_contains {r : Run} {code : Nat} (inside : r.contains code = true) :
    r.first ≤ code := by
  unfold Run.contains at inside
  simp only [Bool.and_eq_true, decide_eq_true_eq] at inside
  exact inside.1.1

variable {c : Char} (ascii : c.toNat < 128)

include ascii

theorem Run.contains_of_behind {r : Run} (behind : 128 ≤ r.first) : r.contains c.toNat = false := by
  cases inside : r.contains c.toNat with
  | false => rfl
  | true =>
    have first := Run.first_le_of_contains inside
    omega

theorem inRuns_take {runs : List Run} {count : Nat}
    (behind : ∀ r ∈ runs.drop count, 128 ≤ r.first) :
    inRuns runs c = inRuns (runs.take count) c := by
  have none : (runs.drop count).any (·.contains c.toNat) = false := by
    rw [List.any_eq_false]
    intro r listed
    simp [Run.contains_of_behind ascii (behind r listed)]
  calc inRuns runs c
    _ = inRuns (runs.take count ++ runs.drop count) c := by rw [List.take_append_drop]
    _ = inRuns (runs.take count) c := by
      unfold inRuns
      rw [List.any_append, none, Bool.or_false]

theorem shifted_take {shifts : List Shift} {count : Nat}
    (behind : ∀ s ∈ shifts.drop count, 128 ≤ s.run.first) :
    shifted shifts c = shifted (shifts.take count) c := by
  have none : (shifts.drop count).find? (·.run.contains c.toNat) = none := by
    rw [List.find?_eq_none]
    intro s listed
    simp [Run.contains_of_behind ascii (behind s listed)]
  calc shifted shifts c
    _ = shifted (shifts.take count ++ shifts.drop count) c := by rw [List.take_append_drop]
    _ = shifted (shifts.take count) c := by
      unfold shifted
      rw [List.find?_append, none, Option.or_none]

end Tables

/-- The first entries of the tables are those of ASCII. -/
theorem behind_ascii :
    (∀ r ∈ alphanumericRuns.drop 3, 128 ≤ r.first) ∧
    (∀ r ∈ uppercaseRuns.drop 1, 128 ≤ r.first) ∧ (∀ r ∈ lowercaseRuns.drop 1, 128 ≤ r.first) ∧
    (∀ s ∈ lowerShifts.drop 1, 128 ≤ s.run.first) ∧ (∀ s ∈ upperShifts.drop 1, 128 ≤ s.run.first) ∧
    ∀ e ∈ upperExpansions, 128 ≤ e.1 := by
  decide +kernel

section Characters

variable {c : Char} (ascii : c.toNat < 128)

include ascii

theorem isAlphanumeric_ascii : isAlphanumeric c = c.isAlphanum := by
  obtain ⟨behind, -⟩ := behind_ascii
  unfold isAlphanumeric
  rw [inRuns_take ascii behind]
  exact of_ascii (P := fun c => inRuns (alphanumericRuns.take 3) c = c.isAlphanum) (by decide) ascii

theorem isUppercase_ascii : isUppercase c = c.isUpper := by
  obtain ⟨-, behind, -⟩ := behind_ascii
  unfold isUppercase
  rw [inRuns_take ascii behind]
  exact of_ascii (P := fun c => inRuns (uppercaseRuns.take 1) c = c.isUpper) (by decide) ascii

theorem isLowercase_ascii : isLowercase c = c.isLower := by
  obtain ⟨-, -, behind, -⟩ := behind_ascii
  unfold isLowercase
  rw [inRuns_take ascii behind]
  exact of_ascii (P := fun c => inRuns (lowercaseRuns.take 1) c = c.isLower) (by decide) ascii

theorem toLower_ascii : toLower c = [c.toLower] := by
  obtain ⟨-, -, -, behind, -⟩ := behind_ascii
  have other : c.toNat ≠ 0x130 := by omega
  have same : shifted (lowerShifts.take 1) c = c.toLower :=
    of_ascii (P := fun c => shifted (lowerShifts.take 1) c = c.toLower) (by decide) ascii
  unfold toLower
  rw [if_neg other, shifted_take ascii behind, same]

theorem toUpper_ascii : toUpper c = [c.toUpper] := by
  obtain ⟨-, -, -, -, behind, expands⟩ := behind_ascii
  have none : upperExpansions.lookup c.toNat = none := by
    apply List.lookup_eq_none_iff.2
    intro e listed
    have far := expands e listed
    apply bne_iff_ne.2
    omega
  have same : shifted (upperShifts.take 1) c = c.toUpper :=
    of_ascii (P := fun c => shifted (upperShifts.take 1) c = c.toUpper) (by decide) ascii
  unfold toUpper
  rw [none, shifted_take ascii behind, same]

end Characters

end SchemaBindings.Unicode
