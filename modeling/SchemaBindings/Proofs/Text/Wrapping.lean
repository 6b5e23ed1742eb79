import SchemaBindings.Text.Wrap

/-! Wrapping keeps a paragraph as it is. Put together again, the parts of its words are the
paragraph, and a line is a stretch of it. No character but spaces is lost between the lines. -/

namespace SchemaBindings.Text

section Parts

/-- A part as it stands in the paragraph, with its spaces. -/
def Part.source (p : Part) : List Char := p.text ++ List.replicate p.blanks ' '

def sourceOf (parts : List Part) : List Char := parts.flatMap Part.source

theorem sourceOf_append (ps qs : List Part) : sourceOf (ps ++ qs) = sourceOf ps ++ sourceOf qs :=
  List.flatMap_append

theorem sourceOf_addChar (c : Char) (parts : List Part) :
    sourceOf (addChar c parts) = c :: sourceOf parts := by
  cases parts <;> rfl

/-- Spaces that follow spaces belong to a word that has no letters yet. -/
theorem exists_blanks_wordsFrom (paragraph : List Char) :
    ∃ blanks others, wordsFrom true paragraph = ⟨[], blanks⟩ :: others := by
  induction paragraph with
  | nil => exact ⟨0, [], rfl⟩
  | cons c rest ih =>
    by_cases blank : c = ' '
    · obtain ⟨blanks, others, same⟩ := ih
      exact ⟨blanks + 1, others, by rw [wordsFrom, if_pos blank, same, addBlank]⟩
    · exact ⟨0, _, by rw [wordsFrom, if_neg blank, if_pos rfl]⟩

theorem sourceOf_wordsFrom (inBlanks : Bool) (paragraph : List Char) :
    sourceOf (wordsFrom inBlanks paragraph) = paragraph := by
  induction paragraph generalizing inBlanks with
  | nil => rfl
  | cons c rest ih =>
    rw [wordsFrom]
    split
    · rename_i blank
      obtain ⟨blanks, others, same⟩ := exists_blanks_wordsFrom rest
      have later := ih true
      rw [same] at later
      rw [same, addBlank, blank, ← later]
      rfl
    · split
      · exact (sourceOf_addChar c _).trans (congrArg (c :: ·) (ih false))
      · rw [sourceOf_addChar, ih]

end Parts

section Pieces

theorem extend_ne_nil {α : Type} (a : α) (parts : List (List α)) : extend a parts ≠ [] := by
  cases parts <;> exact List.cons_ne_nil _ _

theorem cutAtHyphens_ne_nil (before : Option Char) (word : List Char) :
    cutAtHyphens before word ≠ [] := by
  fun_cases cutAtHyphens before word
  · exact List.cons_ne_nil _ _
  · exact List.cons_ne_nil _ _
  · exact List.cons_ne_nil _ _
  · exact extend_ne_nil _ _

theorem flatten_cutAtHyphens (before : Option Char) (word : List Char) :
    (cutAtHyphens before word).flatten = word := by
  fun_induction cutAtHyphens before word with
  | case1 => rfl
  | case2 => rfl
  | case3 before c next rest _ ih => simp [ih]
  | case4 before c next rest _ ih => rw [flatten_extend, ih]

theorem cutToWidth_ne_nil (limit used : Nat) (state : Control) (piece : List Char) :
    cutToWidth limit used state piece ≠ [] := by
  cases piece with
  | nil => exact List.cons_ne_nil _ _
  | cons c rest =>
    rw [cutToWidth]
    split
    · exact List.cons_ne_nil _ _
    · exact extend_ne_nil _ _

theorem flatten_cutToWidth (limit used : Nat) (state : Control) (piece : List Char) :
    (cutToWidth limit used state piece).flatten = piece := by
  induction piece generalizing used state with
  | nil => rfl
  | cons c rest ih =>
    simp only [cutToWidth]
    split
    · simp [flatten_extend, ih]
    · rw [flatten_extend, ih]

theorem sourceOf_withBlanks (blanks : Nat) {pieces : List (List Char)} (some' : pieces ≠ []) :
    sourceOf (withBlanks blanks pieces) = pieces.flatten ++ List.replicate blanks ' ' := by
  fun_induction withBlanks blanks pieces with
  | case1 => exact absurd rfl some'
  | case2 last => simp [sourceOf, Part.source]
  | case3 piece rest last ih =>
    have others : rest ≠ [] := fun none => last (none ▸ rfl)
    simp [sourceOf, Part.source, ← ih others]

theorem sourceOf_partsOf (limit : Nat) (word : Part) :
    sourceOf (partsOf limit word) = word.source := by
  have pieces (words : List (List Char)) :
      (words.flatMap (cutToWidth limit 0 .outside)).flatten = words.flatten := by
    induction words with
    | nil => rfl
    | cons word rest ih => simp [flatten_cutToWidth, ih]
  have some' : (cutAtHyphens none word.text).flatMap (cutToWidth limit 0 .outside) ≠ [] := by
    obtain ⟨first, others, same⟩ := List.exists_cons_of_ne_nil (cutAtHyphens_ne_nil none word.text)
    rw [same, List.flatMap_cons]
    exact List.append_ne_nil_of_left_ne_nil (cutToWidth_ne_nil limit 0 .outside first) _
  rw [partsOf, sourceOf_withBlanks _ some', pieces, flatten_cutAtHyphens, Part.source]

theorem sourceOf_partsOf_words (limit : Nat) (paragraph : List Char) :
    sourceOf ((wordsFrom false paragraph).flatMap (partsOf limit)) = paragraph := by
  have each (words : List Part) : sourceOf (words.flatMap (partsOf limit)) = sourceOf words := by
    induction words with
    | nil => rfl
    | cons word rest ih =>
      rw [List.flatMap_cons, sourceOf_append, sourceOf_partsOf, ih]
      rfl
  rw [each, sourceOf_wordsFrom]

end Pieces

section Lines

theorem flatten_fill (limit used : Nat) (started : Bool) (parts : List Part) :
    (fill limit used started parts).flatten = parts := by
  induction parts generalizing used started with
  | nil => rfl
  | cons p rest ih =>
    simp only [fill]
    split
    · simp [flatten_extend, ih]
    · rw [flatten_extend, ih]

/-- A line loses only the spaces at its end. -/
theorem lineOf_isPrefix (parts : List Part) : lineOf parts <+: sourceOf parts := by
  fun_induction lineOf parts with
  | case1 => exact List.nil_prefix
  | case2 last =>
    rw [sourceOf, List.flatMap_singleton, Part.source]
    exact List.prefix_append _ _
  | case3 p rest _ ih =>
    have cut : sourceOf (p :: rest) = p.text ++ List.replicate p.blanks ' ' ++ sourceOf rest := rfl
    rw [cut]
    exact (List.prefix_append_right_inj _).2 ih

/-- A line stands in the paragraph as it is. -/
theorem isInfix_of_mem_wrap {limit : Nat} {paragraph line : List Char}
    (member : line ∈ wrap limit paragraph) : line <:+: paragraph := by
  obtain ⟨parts, filled, rfl⟩ := List.mem_map.1 member
  have stretch : parts <:+: (wordsFrom false paragraph).flatMap (partsOf limit) := by
    rw [← flatten_fill limit 0 false ((wordsFrom false paragraph).flatMap (partsOf limit))]
    exact List.infix_of_mem_flatten filled
  have inside : sourceOf parts <:+: paragraph := by
    rw [← sourceOf_partsOf_words limit paragraph]
    obtain ⟨front, back, same⟩ := stretch
    exact ⟨sourceOf front, sourceOf back, by rw [← same, sourceOf_append, sourceOf_append]⟩
  exact (lineOf_isPrefix parts).isInfix.trans inside

theorem mem_lineOf_of_mem_sourceOf {c : Char} (ink : c ≠ ' ') {parts : List Part}
    (member : c ∈ sourceOf parts) : c ∈ lineOf parts := by
  have own {p : Part} (inside : c ∈ p.source) : c ∈ p.text :=
    (List.mem_append.1 inside).resolve_right fun blank => ink (List.eq_of_mem_replicate blank)
  fun_induction lineOf parts with
  | case1 => cases member
  | case2 last =>
    rw [sourceOf, List.flatMap_singleton] at member
    exact own member
  | case3 p rest _ ih =>
    rw [sourceOf, List.flatMap_cons, ← sourceOf] at member
    rcases List.mem_append.1 member with first | later
    · exact List.mem_append_left _ (List.mem_append_left _ (own first))
    · exact List.mem_append_right _ (ih later)

/-- Spaces may be lost at the end of a line, and nothing else is. -/
theorem exists_line_iff {c : Char} (ink : c ≠ ' ') {limit : Nat} {paragraph : List Char} :
    (∃ line ∈ wrap limit paragraph, c ∈ line) ↔ c ∈ paragraph := by
  constructor
  · rintro ⟨line, member, inside⟩
    exact (isInfix_of_mem_wrap member).subset inside
  · intro member
    rw [← sourceOf_partsOf_words limit paragraph,
      ← flatten_fill limit 0 false ((wordsFrom false paragraph).flatMap (partsOf limit))] at member
    obtain ⟨p, listed, inside⟩ := List.mem_flatMap.1 member
    obtain ⟨parts, filled, own⟩ := List.mem_flatten.1 listed
    exact ⟨lineOf parts, List.mem_map_of_mem filled,
      mem_lineOf_of_mem_sourceOf ink (List.mem_flatMap.2 ⟨p, own, inside⟩)⟩

end Lines

end SchemaBindings.Text
