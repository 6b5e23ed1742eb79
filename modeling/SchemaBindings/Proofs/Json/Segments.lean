import SchemaBindings.Json.Pointer
import SchemaBindings.Text.Cut

/-! A pointer is read back by cutting it at its slashes and undoing the escapes. The segments come
out as they went in, so different ways down from the whole document give different pointers. -/

namespace SchemaBindings.Text

variable {α : Type} {isSeparator : α → Bool}

theorem splitAtEach_of_forall_not {part : List α} (inner : ∀ a ∈ part, isSeparator a = false) :
    splitAtEach isSeparator part = [part] := by
  induction part with
  | nil => rfl
  | cons a rest ih =>
    obtain ⟨first, later⟩ := List.forall_mem_cons.1 inner
    simp only [splitAtEach, first, ih later, extend, Bool.false_eq_true, if_false]

theorem splitAtEach_append_cons {part : List α} (inner : ∀ a ∈ part, isSeparator a = false)
    {separator : α} (separates : isSeparator separator = true) (rest : List α) :
    splitAtEach isSeparator (part ++ separator :: rest) = part :: splitAtEach isSeparator rest := by
  induction part with
  | nil => simp only [List.nil_append, splitAtEach, separates, if_true]
  | cons a more ih =>
    obtain ⟨first, later⟩ := List.forall_mem_cons.1 inner
    simp only [List.cons_append, splitAtEach, first, ih later, extend, Bool.false_eq_true, if_false]

end SchemaBindings.Text

namespace SchemaBindings.Pointer

/-- Undoes the escapes of a segment. -/
def unescape : List Char → List Char
  | '~' :: '0' :: rest => '~' :: unescape rest
  | '~' :: '1' :: rest => '/' :: unescape rest
  | c :: rest => c :: unescape rest
  | [] => []

/-- The segments that lead from the whole document to a place. -/
def segments (p : Pointer) : List String :=
  ((Text.splitAtEach (· == '/') p.text.toList).drop 1).map
    (fun part => String.ofList (unescape part))

theorem unescape_cons {c : Char} (plain : c ≠ '~') (rest : List Char) :
    unescape (c :: rest) = c :: unescape rest := by
  rw [unescape]
  · exact fun _ same => (plain same).elim
  · exact fun _ same => (plain same).elim

theorem unescape_flatMap_escapeChar (cs : List Char) : unescape (cs.flatMap escapeChar) = cs := by
  induction cs with
  | nil => rfl
  | cons c rest ih =>
    rw [List.flatMap_cons]
    by_cases tilde : c = '~'
    · subst tilde
      simp only [escapeChar, List.cons_append, List.nil_append, unescape, ih]
    · by_cases slash : c = '/'
      · subst slash
        simp only [escapeChar, List.cons_append, List.nil_append, unescape, ih]
      · have plain : escapeChar c = [c] := escapeChar.eq_3 c tilde slash
        rw [plain, List.singleton_append, unescape_cons tilde, ih]

/-- Writes one character for each tilde with a certain digit behind it. -/
def undo (digit character : Char) : List Char → List Char
  | '~' :: c :: rest =>
    if c = digit then character :: undo digit character rest
    else '~' :: undo digit character (c :: rest)
  | c :: rest => c :: undo digit character rest
  | [] => []

theorem undo_cons {digit character c : Char} (plain : c ≠ '~') (rest : List Char) :
    undo digit character (c :: rest) = c :: undo digit character rest := by
  rw [undo]
  exact fun _ _ same => (plain same).elim

/-- The first of the two passes makes no escape for the second. -/
theorem head?_undo_slash {cs : List Char} (other : cs.head? ≠ some '0') :
    (undo '1' '/' cs).head? ≠ some '0' := by
  fun_cases undo '1' '/' cs with
  | case1 rest => simp
  | case2 c rest _ => simp
  | case3 c rest _ => simpa using other
  | case4 => simp

/-- The escapes can be undone in two passes, first those of slashes and then those of tildes. -/
theorem unescape_eq_undo (cs : List Char) : unescape cs = undo '0' '~' (undo '1' '/' cs) := by
  fun_induction unescape cs with
  | case1 rest ih => simp [undo, ih]
  | case2 rest ih => simp [undo, undo_cons, ih]
  | case3 c rest zero one ih =>
    by_cases tilde : c = '~'
    · subst tilde
      cases rest with
      | nil => rfl
      | cons d rest =>
        have slash : d ≠ '1' := by
          rintro rfl
          exact one rest rfl rfl
        have next : (d :: rest).head? ≠ some '0' := by
          rintro ⟨⟩
          exact zero rest rfl rfl
        have kept := head?_undo_slash next
        rw [undo, if_neg slash, ih]
        cases first : undo '1' '/' (d :: rest) with
        | nil => rfl
        | cons e more =>
          rw [first] at kept
          rw [undo, if_neg (by simpa using kept)]
    · rw [undo_cons tilde, undo_cons tilde, ih]
  | case4 => rfl

theorem slash_not_mem_escapeChar (c : Char) : '/' ∉ escapeChar c := by
  unfold escapeChar
  split
  · decide
  · decide
  · rename_i slash
    simpa [eq_comm] using slash

theorem toList_escape (segment : String) :
    (escape segment).toList = segment.toList.flatMap escapeChar := by
  simp [escape]

theorem slash_not_mem_escape (segment : String) : '/' ∉ (escape segment).toList := by
  rw [toList_escape, List.mem_flatMap]
  rintro ⟨c, -, slash⟩
  exact slash_not_mem_escapeChar c slash

/-- Each step down adds a slash and an escaped segment. -/
theorem toList_descend (p : Pointer) (xs : List String) :
    (p.descend xs).text.toList =
      p.text.toList ++ xs.flatMap (fun segment => '/' :: (escape segment).toList) := by
  induction xs generalizing p with
  | nil => simp [descend]
  | cons segment rest ih =>
    rw [descend, List.foldl_cons, ← descend, ih]
    simp [child]

theorem toList_descend_root (xs : List String) :
    (root.descend xs).text.toList = xs.flatMap (fun segment => '/' :: (escape segment).toList) := by
  rw [toList_descend, root, String.toList_empty, List.nil_append]

theorem splitAtEach_escaped (part : List Char) (inner : '/' ∉ part) (xs : List String) :
    Text.splitAtEach (· == '/')
        (part ++ xs.flatMap (fun segment => '/' :: (escape segment).toList)) =
      part :: xs.map (fun segment => (escape segment).toList) := by
  have apart (cs : List Char) (free : '/' ∉ cs) : ∀ c ∈ cs, (c == '/') = false :=
    fun c member => beq_false_of_ne fun same => free (same ▸ member)
  induction xs generalizing part with
  | nil => simpa using Text.splitAtEach_of_forall_not (apart part inner)
  | cons segment rest ih =>
    rw [List.flatMap_cons, List.cons_append,
      Text.splitAtEach_append_cons (apart part inner) (by rfl),
      ih _ (slash_not_mem_escape segment), List.map_cons]

theorem segments_descend (xs : List String) : (root.descend xs).segments = xs := by
  have cut := splitAtEach_escaped [] List.not_mem_nil xs
  rw [List.nil_append] at cut
  rw [segments, toList_descend_root, cut, List.drop_one, List.tail_cons, List.map_map]
  refine List.map_id'' (fun segment => ?_) xs
  simp only [Function.comp_apply, toList_escape, unescape_flatMap_escapeChar, String.ofList_toList]

theorem descend_root_inj {xs ys : List String} : root.descend xs = root.descend ys ↔ xs = ys :=
  ⟨fun same => by rw [← segments_descend xs, same, segments_descend], fun same => same ▸ rfl⟩

end SchemaBindings.Pointer
