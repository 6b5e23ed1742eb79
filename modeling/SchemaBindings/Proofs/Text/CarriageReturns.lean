import Mathlib.Data.List.Basic
import Mathlib.Data.List.TakeWhile
import SchemaBindings.Proofs.Text.Lines

/-! Carriage returns in comments. Trimming a description, ending its lines and trimming these lines
drops the returns at their ends. A return between words is dropped by none of these steps. -/

namespace SchemaBindings.Text

open Binding (descriptionLines paragraphLines)
open Unicode (isBlank trim trimEnd trimStart)

/-- Some carriage return stands behind ink, and before ink of the same line. Only a line feed ends
a line. -/
def Stranded (text : List Char) : Prop :=
  ∃ before between ink after, text = before ++ '\r' :: (between ++ ink :: after) ∧
    (∃ c ∈ before, isBlank c = false) ∧ '\n' ∉ between ∧ isBlank ink = false

/-- Some carriage return stands before ink of the same line. -/
def ReturnBeforeInk (text : List Char) : Prop :=
  ∃ before between ink after, text = before ++ '\r' :: (between ++ ink :: after) ∧
    '\n' ∉ between ∧ isBlank ink = false

section Trimming

variable {text : List Char} {ink : Char}

theorem isBlank_return : isBlank '\r' = true := by decide

theorem ne_of_isBlank {c : Char} (blank : isBlank c = true) (plain : isBlank ink = false) :
    c ≠ ink := by
  rintro rfl
  rw [blank] at plain
  cases plain

theorem trimEnd_append_ink (plain : isBlank ink = false) (front back : List Char) :
    trimEnd (front ++ ink :: back) = front ++ ink :: trimEnd back := by
  have stays : (ink :: front.reverse).dropWhile isBlank = ink :: front.reverse :=
    List.dropWhile_cons_of_neg (by simp [plain])
  have reversed : (front ++ ink :: back).reverse = back.reverse ++ ink :: front.reverse := by simp
  rw [trimEnd, reversed, List.dropWhile_append, trimEnd]
  split
  · rename_i blank
    rw [stays, List.isEmpty_iff.1 blank]
    simp
  · simp

theorem trimEnd_of_blank (blank : ∀ c ∈ text, isBlank c = true) : trimEnd text = [] := by
  rw [trimEnd, List.reverse_eq_nil_iff, List.dropWhile_eq_nil_iff]
  exact fun c member => blank c (List.mem_reverse.1 member)

/-- What is left ends with ink, if there is any. -/
theorem exists_ink_of_trimEnd (some' : trimEnd text ≠ []) :
    ∃ front ink, trimEnd text = front ++ [ink] ∧ isBlank ink = false := by
  have head := List.head?_dropWhile_not isBlank text.reverse
  cases kept : text.reverse.dropWhile isBlank with
  | nil => exact absurd (by rw [trimEnd, kept, List.reverse_nil]) some'
  | cons ink rest =>
    rw [kept] at head
    exact ⟨rest.reverse, ink, by rw [trimEnd, kept, List.reverse_cons], head⟩

/-- A blank is left at the end when there is ink behind it. -/
theorem mem_trimEnd_iff {c : Char} (blank : isBlank c = true) :
    c ∈ trimEnd text ↔ ∃ before between ink after,
      text = before ++ c :: (between ++ ink :: after) ∧ isBlank ink = false := by
  constructor
  · intro member
    obtain ⟨front, ink, ends, plain⟩ := exists_ink_of_trimEnd (List.ne_nil_of_mem member)
    have inside : c ∈ front := by
      rw [ends] at member
      exact (List.mem_append.1 member).resolve_right fun last =>
        ne_of_isBlank blank plain (List.mem_singleton.1 last)
    obtain ⟨before, between, rfl⟩ := List.append_of_mem inside
    obtain ⟨after, whole⟩ := trimEnd_isPrefix text
    exact ⟨before, between, ink, after, by rw [← whole, ends]; simp, plain⟩
  · rintro ⟨before, between, ink, after, rfl, plain⟩
    rw [← List.cons_append, ← List.append_assoc, trimEnd_append_ink plain]
    simp

/-- A blank at the end does not matter. -/
theorem trimEnd_dropLast {c : Char} (last : text.getLast? = some c) (blank : isBlank c = true) :
    trimEnd text.dropLast = trimEnd text := by
  obtain ⟨front, rfl⟩ := List.getLast?_eq_some_iff.1 last
  rw [List.dropLast_concat, trimEnd, trimEnd, List.reverse_concat,
    List.dropWhile_cons_of_pos blank]

/-- The first line of a trimmed text starts with ink, so only the ink behind a return counts. -/
theorem stranded_iff_trim {text : String} :
    Stranded text.toList ↔ ReturnBeforeInk (trim text).toList := by
  have trimmed : (trim text).toList = trimEnd (trimStart text.toList) := String.toList_ofList
  rw [trimmed]
  generalize text.toList = text
  constructor
  · rintro ⟨before, between, ink, after, rfl, ⟨c, member, shown⟩, line, plain⟩
    refine ⟨before.dropWhile isBlank, between, ink, trimEnd after, ?_, line, plain⟩
    have kept : ¬ (before.dropWhile isBlank).isEmpty = true := by
      rw [List.isEmpty_iff, List.dropWhile_eq_nil_iff]
      exact fun blank => ne_of_isBlank (blank c member) shown rfl
    rw [trimStart, List.dropWhile_append, if_neg kept, ← List.cons_append,
      ← List.append_assoc, trimEnd_append_ink plain]
    simp
  · rintro ⟨before, between, ink, after, same, line, plain⟩
    obtain ⟨dropped, whole⟩ := trimEnd_isPrefix (trimStart text)
    rw [same] at whole
    have head := List.head?_dropWhile_not isBlank text
    rw [← trimStart, ← whole] at head
    cases before with
    | nil => exact absurd isBlank_return (by simpa using head)
    | cons first before =>
      have back : text = text.takeWhile isBlank ++ trimStart text :=
        List.takeWhile_append_dropWhile.symm
      refine ⟨text.takeWhile isBlank ++ first :: before, between, ink, after ++ dropped, ?_,
        ⟨first, List.mem_append_right _ List.mem_cons_self, head⟩, line, plain⟩
      refine back.trans ?_
      rw [← whole]
      simp

end Trimming

section Lines

variable {text : List Char}

/-- Trimming drops the return that ends a line, so the lines keep what the pieces between line feeds
keep. -/
theorem exists_mem_endLines_iff {c : Char} (parts : List (List Char)) :
    (∃ line ∈ endLines parts, c ∈ trimEnd line) ↔ ∃ part ∈ parts, c ∈ trimEnd part := by
  fun_induction endLines parts with
  | case1 => rfl
  | case2 last empty =>
    obtain rfl := List.isEmpty_iff.1 empty
    simp [trimEnd]
  | case3 last ink => rfl
  | case4 part rest _ ih =>
    have same : trimEnd (if part.getLast? = some '\r' then part.dropLast else part) =
        trimEnd part := by
      split
      · rename_i last
        exact trimEnd_dropLast last isBlank_return
      · rfl
    rw [List.exists_mem_cons_iff, List.exists_mem_cons_iff, same, ih]

theorem exists_return_iff :
    (∃ line ∈ lines text, '\r' ∈ trimEnd line) ↔ ReturnBeforeInk text := by
  rw [lines, exists_mem_endLines_iff]
  constructor
  · rintro ⟨piece, listed, member⟩
    obtain ⟨before, between, ink, after, rfl, plain⟩ := (mem_trimEnd_iff isBlank_return).1 member
    obtain ⟨front, back, whole⟩ := isInfix_of_mem_splitAtEach listed
    have line : '\n' ∉ between := by
      intro feed
      have member : '\n' ∈ before ++ '\r' :: (between ++ ink :: after) := by simp [feed]
      exact absurd (not_separator_of_mem_splitAtEach listed _ member) (by decide)
    exact ⟨front ++ before, between, ink, after ++ back, by rw [← whole]; simp, line, plain⟩
  · rintro ⟨before, between, ink, after, rfl, line, plain⟩
    have feed : '\n' ≠ ink := ne_of_isBlank (by decide) plain
    have whole : ∀ c ∈ '\r' :: (between ++ [ink]), (c == '\n') = false := by
      intro c member
      refine beq_false_of_ne ?_
      rintro rfl
      simp [line, feed] at member
    have inside : '\r' :: (between ++ [ink]) <:+: before ++ '\r' :: (between ++ ink :: after) :=
      ⟨before, after, by simp⟩
    obtain ⟨piece, listed, front, back, rfl⟩ := exists_piece_of_isInfix whole inside
    have kept := (mem_trimEnd_iff isBlank_return).2 ⟨front, between, ink, back, rfl, plain⟩
    have same : front ++ '\r' :: (between ++ [ink]) ++ back =
        front ++ '\r' :: (between ++ ink :: back) := by simp
    exact ⟨_, listed, same ▸ kept⟩

end Lines

section Comments

theorem exists_mem_paragraphLines_iff {limit : Nat} {paragraph : List Char} :
    (∃ line ∈ paragraphLines limit paragraph, '\r' ∈ line) ↔ '\r' ∈ trimEnd paragraph := by
  unfold paragraphLines
  split
  · rename_i blank
    rw [trimEnd_of_blank (List.all_eq_true.1 blank)]
    simp
  · exact exists_line_iff (by decide)

/-- A comment holds a carriage return when its description has one between ink. -/
theorem exists_mem_descriptionLines_iff (description : String) (lead : Nat) :
    (∃ line ∈ descriptionLines description lead, '\r' ∈ line.toList) ↔
      Stranded description.toList := by
  rw [stranded_iff_trim, ← exists_return_iff]
  constructor
  · rintro ⟨line, member, inside⟩
    obtain ⟨chars, listed, rfl⟩ := List.mem_map.1 member
    obtain ⟨paragraph, isLine, own⟩ := List.mem_flatMap.1 listed
    rw [String.toList_ofList] at inside
    exact ⟨paragraph, isLine, exists_mem_paragraphLines_iff.1 ⟨chars, own, inside⟩⟩
  · rintro ⟨paragraph, isLine, inside⟩
    obtain ⟨chars, own, inside⟩ := exists_mem_paragraphLines_iff.2 inside
    exact ⟨String.ofList chars, List.mem_map_of_mem (List.mem_flatMap.2 ⟨paragraph, isLine, own⟩),
      String.toList_ofList.symm ▸ inside⟩

instance (text : String) : Decidable (Stranded text.toList) :=
  decidable_of_iff (∃ line ∈ lines (trim text).toList, '\r' ∈ trimEnd line)
    (exists_return_iff.trans stranded_iff_trim.symm)

end Comments

end SchemaBindings.Text
