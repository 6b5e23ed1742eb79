import Mathlib.Data.List.Chain
import SchemaBindings.Text.Cut

/-! Two characters that never stand next to each other. Where texts are joined this is a matter of the
last character before the seam and of the first one behind it. -/

namespace SchemaBindings.Text

variable {a b : Char}

/-- Nowhere in the text does `b` stand right behind `a`. -/
def Apart (a b : Char) (text : List Char) : Prop := ¬ [a, b] <:+: text

theorem apart_iff_isChain {text : List Char} :
    Apart a b text ↔ text.IsChain fun c d => ¬ (c = a ∧ d = b) := by
  rw [List.isChain_iff_forall_rel_of_append_cons_cons]
  constructor
  · rintro apart c d front back rfl ⟨rfl, rfl⟩
    exact apart ⟨front, back, by simp⟩
  · rintro chain ⟨front, back, rfl⟩
    exact chain (show _ = front ++ a :: b :: back by simp) ⟨rfl, rfl⟩

instance (a b : Char) (text : List Char) : Decidable (Apart a b text) :=
  decidable_of_iff _ apart_iff_isChain.symm

theorem apart_append {xs ys : List Char} :
    Apart a b (xs ++ ys) ↔
      Apart a b xs ∧ Apart a b ys ∧ ¬ (xs.getLast? = some a ∧ ys.head? = some b) := by
  have seam : (∀ c ∈ xs.getLast?, ∀ d ∈ ys.head?, ¬ (c = a ∧ d = b)) ↔
      ¬ (xs.getLast? = some a ∧ ys.head? = some b) := by
    constructor
    · rintro each ⟨last, head⟩
      exact each a last b head ⟨rfl, rfl⟩
    · rintro no c last d head ⟨rfl, rfl⟩
      exact no ⟨last, head⟩
  simp only [apart_iff_isChain, List.isChain_append, seam]

theorem Apart.of_isInfix {text part : List Char} (apart : Apart a b text)
    (inside : part <:+: text) : Apart a b part :=
  fun pair => apart (pair.trans inside)

theorem apart_of_not_mem {text : List Char} (missing : a ∉ text ∨ b ∉ text) : Apart a b text := by
  intro pair
  rcases missing with missing | missing
  · exact missing (pair.subset List.mem_cons_self)
  · exact missing (pair.subset (List.mem_cons_of_mem _ List.mem_cons_self))

theorem toList_unlines_cons (line : String) (lines : List String) :
    (unlines (line :: lines)).toList = line.toList ++ '\n' :: (unlines lines).toList := by
  simp [unlines, String.toList_join]

/-- A line feed parts what stands before it from what stands behind it. -/
theorem apart_append_feed (first : a ≠ '\n') (second : b ≠ '\n') {xs ys : List Char} :
    Apart a b (xs ++ '\n' :: ys) ↔ Apart a b xs ∧ Apart a b ys := by
  have behind : Apart a b ('\n' :: ys) ↔ Apart a b ys := by
    have feed : Apart a b ['\n'] := apart_of_not_mem (.inl (by simpa using first))
    have seam : ¬ (['\n'].getLast? = some a ∧ ys.head? = some b) :=
      fun seam => first (Option.some.inj seam.1).symm
    rw [← List.singleton_append, apart_append]
    simp only [feed, seam, not_false_eq_true, true_and, and_true]
  have seam : ¬ (xs.getLast? = some a ∧ ('\n' :: ys).head? = some b) :=
    fun seam => second (Option.some.inj seam.2).symm
  rw [apart_append, behind]
  simp only [seam, not_false_eq_true, and_true]

theorem apart_unlines (first : a ≠ '\n') (second : b ≠ '\n') {lines : List String} :
    Apart a b (unlines lines).toList ↔ ∀ line ∈ lines, Apart a b line.toList := by
  induction lines with
  | nil =>
    have empty : Apart a b (unlines []).toList := apart_of_not_mem (.inl List.not_mem_nil)
    simp [empty]
  | cons line rest ih =>
    rw [toList_unlines_cons, apart_append_feed first second, ih, List.forall_mem_cons]

end SchemaBindings.Text
