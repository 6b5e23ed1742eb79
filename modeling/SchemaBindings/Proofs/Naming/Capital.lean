import SchemaBindings.Proofs.Naming.Distinct
import SchemaBindings.Proofs.Unicode.Ascii

/-! Where types are named in Pascal case, every type name starts with a capital letter, so that no
word that a language writes in small letters is the name of a type. -/

namespace SchemaBindings.Naming

open Text (extend splitAtEach)

def Capital (name : String) : Prop := ∃ c rest, name.toList = c :: rest ∧ c.isUpper = true

instance (name : String) : Decidable (Capital name) :=
  decidable_of_iff (name.toList.head?.any Char.isUpper = true) (by
    unfold Capital
    cases name.toList <;> simp)

theorem Capital.append {name : String} (capital : Capital name) (suffix : String) :
    Capital (name ++ suffix) := by
  obtain ⟨c, rest, chars, upper⟩ := capital
  exact ⟨c, rest ++ suffix.toList, by simp [chars], upper⟩

theorem ascii_of_isAlpha {c : Char} (letter : c.isAlpha = true) : c.toNat < 128 :=
  Unicode.ascii_of_isAlphanum (Bool.or_eq_true_iff.2 (.inl letter))

/-- What holds of all codes of ASCII that are letters holds of every letter. -/
theorem of_isAlpha {P : Char → Prop}
    (all : ∀ code < 128, (Char.ofNat code).isAlpha = true → P (Char.ofNat code)) {c : Char}
    (letter : c.isAlpha = true) : P c :=
  Unicode.of_ascii (P := fun c => c.isAlpha = true → P c) all (ascii_of_isAlpha letter) letter

theorem isAlphanumeric_of_isAlpha {c : Char} (letter : c.isAlpha = true) :
    Unicode.isAlphanumeric c = true := by
  rw [Unicode.isAlphanumeric_ascii (ascii_of_isAlpha letter), Char.isAlphanum, letter,
    Bool.true_or]

theorem isUpper_toUpper {c : Char} (letter : c.isAlpha = true) :
    ∃ u, Unicode.toUpper c = [u] ∧ u.isUpper = true := by
  refine ⟨c.toUpper, Unicode.toUpper_ascii (ascii_of_isAlpha letter), ?_⟩
  exact of_isAlpha (P := fun c => c.toUpper.isUpper = true) (by decide) letter

theorem exists_extend {α : Type} (a : α) (parts : List (List α)) :
    ∃ part rest, extend a parts = (a :: part) :: rest := by
  cases parts with
  | nil => exact ⟨[], [], rfl⟩
  | cons part rest => exact ⟨part, rest, rfl⟩

theorem exists_humps (c : Char) (cs : List Char) :
    ∃ word rest, humps none (c :: cs) = (c :: word) :: rest := by
  cases cs with
  | nil => exact ⟨[], [], rfl⟩
  | cons next cs =>
    unfold humps
    split
    · exact ⟨[], _, rfl⟩
    · rw [if_neg (by simp)]
      exact exists_extend c _

/-- A text that starts with a letter has a first word that does. -/
theorem exists_rawWords {c : Char} (letter : c.isAlpha = true) (cs : List Char) :
    ∃ word rest, rawWords (c :: cs) = (c :: word) :: rest := by
  obtain ⟨piece, pieces, cut⟩ :=
    exists_extend c (splitAtEach (fun c => !Unicode.isAlphanumeric c) cs)
  obtain ⟨word, rest, first⟩ := exists_humps c piece
  refine ⟨word, rest ++ pieces.flatMap (humps none), ?_⟩
  rw [rawWords, Naming.pieces, splitAtEach, isAlphanumeric_of_isAlpha letter, Bool.not_true,
    if_neg Bool.false_ne_true, cut, List.flatMap_cons, first, List.cons_append]

theorem capital_titleCase {word : String} {c : Char} {cs : List Char}
    (chars : word.toList = c :: cs) (letter : c.isAlpha = true) : Capital (titleCase word) := by
  obtain ⟨first, rest, cut⟩ := exists_rawWords letter cs
  obtain ⟨u, single, upper⟩ := isUpper_toUpper letter
  refine ⟨u, lowerWord first ++ rest.flatMap titleWord, ?_, upper⟩
  simp [titleCase, chars, cut, titleWord, single]

theorem capital_asciiUpper {word : String} {c : Char} {cs : List Char}
    (chars : word.toList = c :: cs) (letter : c.isAlpha = true) : Capital (asciiUpper word) := by
  refine ⟨c.toUpper, cs.map Char.toUpper, by simp [asciiUpper, chars], ?_⟩
  exact of_isAlpha (P := fun c => c.toUpper.isUpper = true) (by decide) letter

/-- A word that starts with a letter. -/
def StartsWithLetter (word : String) : Prop :=
  ∃ c cs, word.toList = c :: cs ∧ c.isAlpha = true

theorem capital_capitalize_title (initialisms : List String) {word : String}
    (letter : StartsWithLetter word) : Capital (capitalize .title initialisms word) := by
  obtain ⟨c, cs, chars, letter⟩ := letter
  simp only [capitalize]
  split
  · exact capital_asciiUpper chars letter
  · exact capital_titleCase chars letter

theorem isAlphanum_of_mem_splitWords {name word : String} (member : word ∈ splitWords name) :
    ∃ c cs, word.toList = c :: cs ∧ c.isAlphanum = true := by
  simp only [splitWords, List.mem_map, List.mem_filter] at member
  obtain ⟨chars, ⟨⟨raw, -, rfl⟩, nonempty⟩, rfl⟩ := member
  rw [String.toList_ofList]
  cases kept : (lowerWord raw).filter Char.isAlphanum with
  | nil => simp [kept] at nonempty
  | cons c cs =>
    have inside : c ∈ (lowerWord raw).filter Char.isAlphanum := kept ▸ List.mem_cons_self
    exact ⟨c, cs, rfl, (List.mem_filter.1 inside).2⟩

theorem startsWithLetter_presentable {words : List String}
    (each : ∀ word ∈ words, ∃ c cs, word.toList = c :: cs ∧ c.isAlphanum = true) :
    ∃ word rest, presentable words = word :: rest ∧ StartsWithLetter word := by
  cases words with
  | nil => exact ⟨"empty", [], rfl, 'e', _, rfl, by decide⟩
  | cons word rest =>
    obtain ⟨c, cs, chars, alphanum⟩ := each word List.mem_cons_self
    simp only [presentable]
    by_cases digit : c.isDigit = true
    · rw [if_pos (by simp [startsWithDigit, chars, digit])]
      exact ⟨"n", word :: rest, rfl, 'n', [], rfl, by decide⟩
    · rw [if_neg (by simp [startsWithDigit, chars, digit])]
      refine ⟨word, rest, rfl, c, cs, chars, ?_⟩
      simpa [Char.isAlphanum, digit] using alphanum

/-- A text that is joined from words starts with the first of them. -/
theorem exists_apply (style : CaseStyle) (initialisms : List String) (word : String)
    (rest : List String) :
    ∃ suffix, style.apply initialisms (word :: rest) =
      capitalize style.first initialisms word ++ suffix := by
  simp only [CaseStyle.apply, CaseStyle.cased]
  cases rest.map (capitalize style.rest initialisms) with
  | nil => exact ⟨"", by simp⟩
  | cons next rest =>
    rw [String.intercalate_cons_cons, String.append_assoc]
    exact ⟨_, rfl⟩

theorem startsAlphanum_of_mem_flatMap {path : List String} :
    ∀ word ∈ path.flatMap splitWords, ∃ c cs, word.toList = c :: cs ∧ c.isAlphanum = true := by
  intro word member
  obtain ⟨part, -, member⟩ := List.mem_flatMap.1 member
  exact isAlphanum_of_mem_splitWords member

theorem capital_apply (initialisms : List String) {words : List String}
    (each : ∀ word ∈ words, ∃ c cs, word.toList = c :: cs ∧ c.isAlphanum = true) :
    Capital (CaseStyle.pascal.apply initialisms (presentable words)) := by
  obtain ⟨word, rest, present, letter⟩ := startsWithLetter_presentable each
  obtain ⟨suffix, same⟩ := exists_apply .pascal initialisms word rest
  rw [present, same]
  exact (capital_capitalize_title initialisms letter).append suffix

theorem capital_identifier (c : Convention) {words : List String}
    (each : ∀ word ∈ words, ∃ c cs, word.toList = c :: cs ∧ c.isAlphanum = true) :
    Capital (c.identifier .pascal words) := by
  simp only [Convention.identifier]
  split
  · exact (capital_apply c.initialisms each).append "_"
  · exact capital_apply c.initialisms each

theorem capital_typeName {c : Convention} (pascal : c.typeCase = .pascal) (path : List String) :
    Capital (c.typeName path) := by
  rw [Convention.typeName, pascal]
  exact capital_identifier c startsAlphanum_of_mem_flatMap

/-- In Pascal case, every type of a catalog has a capital name. -/
theorem capital_type_resolve {c : Convention} (pascal : c.typeCase = .pascal) (catalog : Catalog)
    {n : Names} (named : n ∈ resolve c catalog) : Capital n.type := by
  have claimed : n.type ∈ (typeNames c catalog).1 :=
    map_type_resolve c catalog ▸ List.mem_map_of_mem named
  refine Scope.forall_claimAll (fun base k capital => capital.append k.repr) ?_ _ claimed
  rintro base member
  obtain ⟨d, -, rfl⟩ := List.mem_map.1 member
  exact capital_typeName pascal d.path

end SchemaBindings.Naming
