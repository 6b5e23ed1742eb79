import Mathlib.Logic.Basic
import SchemaBindings.Output.Tree
import SchemaBindings.Proofs.Text.Lines

/-! What stands at each place of a tree once something is made, written or removed. Where a path leads
is said of the path alone; a tree only has to have the directories on the way. -/

namespace SchemaBindings.Output

namespace Path

/-- The place that steps lead to from another one. -/
def follow (place : List String) : List Step → Option (List String)
  | [] => some place
  | .up :: rest => if place.isEmpty then none else follow place.dropLast rest
  | .down name :: rest => follow (place ++ [name]) rest

/-- The place of the file that a path names. -/
def place? (path : String) : Option (List String) :=
  (file? path).bind fun (way, name) => (follow [] way).map (· ++ [name])

/-- The places that steps come by, the last one with them. -/
def passed (place : List String) : List Step → List (List String)
  | [] => []
  | .up :: rest => if place.isEmpty then [] else passed place.dropLast rest
  | .down name :: rest => (place ++ [name]) :: passed (place ++ [name]) rest

/-- The places on the way to a directory. -/
def way (directory : String) : List (List String) := passed [] (steps (segments directory))

/-- A name that leads one step down from wherever it stands. -/
structure IsPlain (name : String) : Prop where
  nonempty : name ≠ ""
  noSlash : '/' ∉ name.toList
  noDot : name ≠ "."
  noDots : name ≠ ".."

theorem passed_dropLast_subset (place : List String) (steps : List Step) :
    passed place steps.dropLast ⊆ passed place steps := by
  fun_induction passed place steps with
  | case1 => simp [passed]
  | case2 place rest top =>
    cases rest <;> simp [passed, top]
  | case3 place rest inside ih =>
    cases rest with
    | nil => simp [passed]
    | cons step rest => simpa [passed, inside] using ih
  | case4 place name rest ih =>
    cases rest with
    | nil => simp [passed]
    | cons step rest =>
      intro p member
      rcases List.mem_cons.1 member with here | later
      · exact List.mem_cons.2 (.inl here)
      · exact List.mem_cons_of_mem _ (ih later)

theorem eq_of_steps {part name : String} (down : steps [part] = [.down name]) :
    name = part := by
  unfold steps at down
  rw [List.filterMap_cons] at down
  split at down
  · cases down
  · rename_i step leads
    obtain rfl := (List.cons.inj down).1
    split at leads <;> cases leads
    rfl

/-- A path that ends in a text without slashes leads to a place whose name ends in it. -/
theorem getLast?_place? {path : String} {front ends : List Char} {p : List String}
    (spelled : path.toList = front ++ ends)
    (slashless : '/' ∉ ends) (leads : place? path = some p) :
    ∃ name, p.getLast? = some name ∧ ends <:+ name.toList := by
  have whole : ∀ c ∈ ends, (c == '/') = false := fun c member =>
    beq_false_of_ne fun same => slashless (same ▸ member)
  obtain ⟨start, cut⟩ := Text.getLast?_splitAtEach_append front whole
  have lastPart : (segments path).getLast? = some (String.ofList (start ++ ends)) := by
    rw [segments, spelled, List.getLast?_map, cut, Option.map_some]
  obtain ⟨⟨way, name⟩, named, leads⟩ := Option.bind_eq_some_iff.1 leads
  obtain ⟨directory, -, rfl⟩ := Option.map_eq_some_iff.1 leads
  refine ⟨name, List.getLast?_concat .., ?_⟩
  rw [file?, lastPart, Option.toList_some] at named
  split at named
  · rename_i down
    cases named
    rw [eq_of_steps down, String.toList_ofList]
    exact List.suffix_append ..
  · cases named

section Joining

variable {name : String} (plain : IsPlain name)

include plain

theorem IsPlain.segments_eq : segments name = [name] := by
  have apart : ∀ c ∈ name.toList, (c == '/') = false :=
    fun c member => beq_false_of_ne fun same => plain.noSlash (same ▸ member)
  rw [segments, Text.splitAtEach_of_forall_not apart]
  simp

theorem IsPlain.steps_eq : steps [name] = [.down name] := by
  unfold steps
  rw [List.filterMap_cons_some (b := .down name), List.filterMap_nil]
  split
  · exact absurd rfl plain.nonempty
  · exact absurd rfl plain.noDot
  · exact absurd rfl plain.noDots
  · rfl

theorem IsPlain.not_isAbsolute : isAbsolute name = false := by
  refine Bool.eq_false_iff.2 fun absolute => ?_
  obtain ⟨rest, same⟩ := String.startsWith_string_iff.1 absolute
  exact plain.noSlash (same ▸ List.mem_append_left rest (List.mem_singleton.2 rfl))

theorem IsPlain.file?_of_segments {path : String} {parts : List String}
    (cut : segments path = parts ++ [name]) : file? path = some (steps parts, name) := by
  simp only [file?, cut, List.getLast?_concat, Option.toList_some, plain.steps_eq,
    List.dropLast_concat]

/-- A plain name behind a directory leads one step further than the directory. -/
theorem IsPlain.file?_join (directory : String) :
    file? (join directory name) = some (steps (segments directory), name) := by
  have own : Text.splitAtEach (· == '/') name.toList = [name.toList] := by
    have cut := plain.segments_eq
    rw [segments] at cut
    obtain ⟨part, same, text⟩ := List.map_eq_singleton_iff.1 cut
    rw [same, ← text, String.toList_ofList]
  unfold join
  rw [plain.not_isAbsolute, Bool.false_or]
  split
  · rename_i empty
    obtain rfl := String.isEmpty_iff.1 empty
    have cut : segments name = [] ++ [name] := plain.segments_eq
    exact (plain.file?_of_segments cut :)
  · split
    · -- The last segment of the directory is empty and leads nowhere.
      rename_i slash
      obtain ⟨front, text⟩ := List.getLast?_eq_some_iff.1 slash
      have directorySteps : steps (segments directory) =
          steps ((Text.splitAtEach (· == '/') front).map String.ofList) := by
        rw [segments, text, Text.splitAtEach_append_separator _ rfl, List.map_append, steps,
          List.filterMap_append]
        exact List.append_nil _
      rw [directorySteps]
      refine plain.file?_of_segments ?_
      rw [segments, String.toList_append, text, List.append_assoc, List.singleton_append,
        Text.splitAtEach_append_separator _ rfl, own, List.map_append, List.map_singleton,
        String.ofList_toList]
    · refine plain.file?_of_segments ?_
      have slash : "/".toList = ['/'] := rfl
      rw [segments, String.toList_append, String.toList_append, slash, List.append_assoc,
        List.singleton_append, Text.splitAtEach_append_separator _ rfl, own, List.map_append,
        List.map_singleton, String.ofList_toList, segments]

theorem IsPlain.place?_join (directory : String) :
    place? (join directory name) =
      (follow [] (steps (segments directory))).map (· ++ [name]) := by
  rw [place?, plain.file?_join, Option.bind_some]

end Joining

end Path

namespace Tree

open Output.Path (follow passed)

variable {t : Tree} {place p : List String}

section Entries

theorem entry?_of_ne (present : place ≠ []) : t.entry? place = t.entries.lookup place := by
  unfold entry?
  rw [if_neg (by simpa using present)]

theorem lookup_filter_ne {α : Type} {key other : List String} (entries : List (List String × α)) :
    (entries.filter fun e => e.1 != other).lookup key =
      if key = other then none else entries.lookup key := by
  induction entries with
  | nil => simp
  | cons entry rest ih =>
    obtain ⟨k, value⟩ := entry
    by_cases here : k = other
    · by_cases same : key = other
      · simpa [here, same] using ih
      · have missed : (key == k) = false := beq_false_of_ne (here ▸ same)
        simpa [here, same, List.lookup_cons, here ▸ missed] using ih
    · rw [List.filter_cons_of_pos (by simpa using here), List.lookup_cons, List.lookup_cons, ih]
      by_cases found : key = k
      · simp [found, here]
      · simp [beq_false_of_ne found]

theorem entry?_erase (inner : place ≠ []) :
    entry? (t.erase place) p = if p = place then none else t.entry? p := by
  by_cases top : p = []
  · subst top
    rw [if_neg (Ne.symm inner)]
    rfl
  · rw [entry?_of_ne top, entry?_of_ne top]
    exact lookup_filter_ne t.entries

theorem entry?_put (inner : place ≠ []) (entry : Entry) :
    entry? (t.put place entry) p = if p = place then some entry else t.entry? p := by
  by_cases top : p = []
  · subst top
    rw [if_neg (Ne.symm inner)]
    rfl
  · rw [entry?_of_ne top, put, List.lookup_cons]
    by_cases same : p = place
    · simp [same]
    · rw [beq_false_of_ne same, if_neg same]
      simpa [entry?_of_ne top, same] using entry?_erase (t := t) (p := p) inner

end Entries

section Ways

/-- Where a walk ends does not depend on the tree. -/
theorem follow_of_walk {steps : List Step} (walks : t.walk place steps = some p) :
    follow place steps = some p := by
  fun_induction walk t place steps with
  | case1 => simpa [follow] using walks
  | case2 => cases walks
  | case3 place rest inside ih => simpa [follow, inside] using ih walks
  | case4 place name rest _ ih => simpa [follow] using ih walks
  | case5 => cases walks

theorem place?_eq (t : Tree) (path : String) :
    t.place? path = if isUsable path then
      (Path.file? path).bind fun (way, name) => (t.walk [] way).map (· ++ [name]) else none := by
  unfold place?
  split
  · cases Path.file? path with
    | none => rfl
    | some found =>
      obtain ⟨way, name⟩ := found
      cases walks : t.walk [] way <;> simp [walks]
  · rfl

theorem place?_eq_some {path : String} (leads : t.place? path = some p) :
    Path.place? path = some p ∧ p ≠ [] := by
  rw [place?_eq] at leads
  split at leads
  · obtain ⟨⟨way, name⟩, named, leads⟩ := Option.bind_eq_some_iff.1 leads
    obtain ⟨directory, walks, rfl⟩ := Option.map_eq_some_iff.1 leads
    have known : Path.place? path = (follow [] way).map (· ++ [name]) := by
      rw [Path.place?, named, Option.bind_some]
    rw [known, follow_of_walk walks]
    exact ⟨rfl, by simp⟩
  · cases leads

variable {t' : Tree} (same : ∀ place, t'.isDirectory place = t.isDirectory place)

include same

theorem walk_congr (steps : List Step) : t'.walk place steps = t.walk place steps := by
  fun_induction walk t place steps with
  | case1 => rfl
  | case2 place rest top => rw [walk, if_pos top]
  | case3 place rest inside ih => rw [walk, if_neg inside, ih]
  | case4 place name rest there ih => rw [walk, if_pos ((same _).trans there), ih]
  | case5 place name rest absent => rw [walk, if_neg ((same _) ▸ absent)]

/-- Paths lead to the same places in trees with the same directories. -/
theorem place?_congr (path : String) : t'.place? path = t.place? path := by
  simp only [place?_eq, walk_congr same]

end Ways

section Operations

variable {t' : Tree} {path : String} {contents : ByteArray}

theorem write?_eq_some (writes : t.write? path contents = some t') :
    ∃ place, t.place? path = some place ∧ t.isDirectory place = false ∧
      t' = t.put place (.file contents) := by
  obtain ⟨place, leads, writes⟩ := Option.bind_eq_some_iff.1 writes
  split at writes
  · cases writes
  · rename_i free
    split at writes
    · exact ⟨place, leads, Bool.eq_false_iff.2 free, (Option.some.inj writes).symm⟩
    · cases writes

theorem isDirectory_put_file (inner : place ≠ []) (free : t.isDirectory place = false) (p) :
    (t.put place (.file contents)).isDirectory p = t.isDirectory p := by
  by_cases here : p = place
  · subst here
    rw [free, isDirectory, entry?_put inner, if_pos rfl]
  · rw [isDirectory, entry?_put inner, if_neg here, isDirectory]

theorem isDirectory_erase (inner : place ≠ []) (free : t.isDirectory place = false) (p) :
    (t.erase place).isDirectory p = t.isDirectory p := by
  by_cases here : p = place
  · subst here
    rw [free, isDirectory, entry?_erase inner, if_pos rfl]
  · rw [isDirectory, entry?_erase inner, if_neg here, isDirectory]

/-- Writing changes no directory. -/
theorem isDirectory_of_write? (writes : t.write? path contents = some t') (p) :
    t'.isDirectory p = t.isDirectory p := by
  obtain ⟨place, leads, free, rfl⟩ := write?_eq_some writes
  exact isDirectory_put_file (place?_eq_some leads).2 free p

/-- Writing changes nothing but the file. -/
theorem entry?_of_write? (writes : t.write? path contents = some t') (p) :
    t'.entry? p = if Path.place? path = some p then some (.file contents) else t.entry? p := by
  obtain ⟨place, leads, -, rfl⟩ := write?_eq_some writes
  obtain ⟨known, inner⟩ := place?_eq_some leads
  rw [entry?_put inner, known]
  exact if_congr (Option.some_inj.trans eq_comm).symm rfl rfl

theorem isDirectory_remove (p) : (t.remove path).isDirectory p = t.isDirectory p := by
  unfold remove
  split
  · rename_i place leads
    split
    · rfl
    · rename_i free
      exact isDirectory_erase (place?_eq_some leads).2 (Bool.eq_false_iff.2 free) p
  · rfl

/-- Removing changes nothing but the file. -/
theorem entry?_remove_of_ne (other : Path.place? path ≠ some p) :
    entry? (t.remove path) p = t.entry? p := by
  unfold remove
  split
  · rename_i place leads
    obtain ⟨known, inner⟩ := place?_eq_some leads
    split
    · rfl
    · have apart : p ≠ place := fun same => other (known.trans (congrArg some same.symm))
      rw [entry?_erase inner, if_neg apart]
  · rfl

/-- Removing makes nothing. -/
theorem entry?_remove_of_none (absent : t.entry? p = none) : entry? (t.remove path) p = none := by
  unfold remove
  split
  · rename_i place leads
    split
    · exact absent
    · rw [entry?_erase (place?_eq_some leads).2, absent, ite_self]
  · exact absent

theorem entry?_remove_self (leads : t.place? path = some p) (free : t.isDirectory p = false) :
    entry? (t.remove path) p = none := by
  rw [remove, leads]
  simp only [free, Bool.false_eq_true, if_false]
  rw [entry?_erase (place?_eq_some leads).2, if_pos rfl]

theorem read?_eq_some : t.read? path = some contents ↔
    ∃ place, t.place? path = some place ∧ t.entry? place = some (.file contents) := by
  rw [read?, Option.bind_eq_bind, Option.bind_eq_some_iff]
  refine exists_congr fun place => and_congr_right fun _ => ?_
  split
  · rename_i there
    rw [there, Option.some_inj, Option.some_inj, Entry.file.injEq]
  · rename_i other
    exact iff_of_false nofun fun there => other contents there

theorem entry?_removeAll_of_ne {paths : List String}
    (other : ∀ path ∈ paths, Path.place? path ≠ some p) :
    entry? (paths.foldl remove t) p = t.entry? p := by
  induction paths generalizing t with
  | nil => rfl
  | cons path rest ih =>
    obtain ⟨first, later⟩ := List.forall_mem_cons.1 other
    exact (ih later).trans (entry?_remove_of_ne first)

theorem entry?_removeAll_of_none {paths : List String} (absent : t.entry? p = none) :
    entry? (paths.foldl remove t) p = none := by
  induction paths generalizing t with
  | nil => exact absent
  | cons path rest ih => exact ih (entry?_remove_of_none absent)

/-- A file is gone once its path is among those that are removed. -/
theorem entry?_removeAll_of_mem {paths : List String} (member : path ∈ paths)
    (leads : t.place? path = some p) (free : t.isDirectory p = false) :
    entry? (paths.foldl remove t) p = none := by
  induction paths generalizing t with
  | nil => cases member
  | cons first rest ih =>
    rw [List.foldl_cons]
    rcases List.mem_cons.1 member with rfl | later
    · exact entry?_removeAll_of_none (entry?_remove_self leads free)
    · refine ih later ?_ ?_
      · rw [place?_congr isDirectory_remove]
        exact leads
      · rw [isDirectory_remove]
        exact free

/-- Where a place is as before, or a directory was made where nothing stood, a directory stays. -/
theorem isDirectory_of_kept {q : Prop} (kept : t'.entry? p = t.entry? p ∨
    t.entry? p = none ∧ t'.entry? p = some .directory ∧ q) (there : t.isDirectory p = true) :
    t'.isDirectory p = true := by
  rcases kept with same | ⟨-, made, -⟩
  · rw [isDirectory, same]
    exact there
  · rw [isDirectory, made]

theorem entry?_of_kept {q : Prop} {entry : Entry} (kept : t'.entry? p = t.entry? p ∨
    t.entry? p = none ∧ t'.entry? p = some .directory ∧ q) (there : t.entry? p = some entry) :
    t'.entry? p = some entry := by
  rcases kept with same | ⟨absent, -⟩
  · exact same.trans there
  · rw [there] at absent
    cases absent

/-- Directories were made at some of the places, where nothing stood; all else is as before. -/
def Opens (places : List (List String)) (before after : Tree) : Prop :=
  ∀ p, after.entry? p = before.entry? p ∨
    before.entry? p = none ∧ after.entry? p = some .directory ∧ p ∈ places

theorem opens_makeWay (t : Tree) (place : List String) (steps : List Step) :
    Opens (passed place steps) t (t.makeWay place steps).1 := by
  fun_induction makeWay t place steps with
  | case1 => exact fun p => .inl rfl
  | case2 => exact fun p => .inl rfl
  | case3 t place rest inside ih => simpa [passed, inside] using ih
  | case4 t place name rest next there ih =>
    intro p
    rcases ih p with same | ⟨free, made, member⟩
    · exact .inl same
    · exact .inr ⟨free, made, List.mem_cons_of_mem _ member⟩
  | case5 => exact fun p => .inl rfl
  | case6 t place name rest next absent short ih =>
    intro p
    have inner : place ++ [name] ≠ [] := by simp
    rcases ih p with same | ⟨free, made, member⟩
    · rw [entry?_put inner] at same
      split at same
      · rename_i here
        exact .inr ⟨here ▸ absent, same, here ▸ List.mem_cons_self⟩
      · exact .inl same
    · rw [entry?_put inner] at free
      split at free
      · cases free
      · exact .inr ⟨free, made, List.mem_cons_of_mem _ member⟩
  | case7 => exact fun p => .inl rfl

/-- Making directories adds some that were missing on the way, and nothing else. -/
theorem opens_makeDirectories (t : Tree) (directory : String) :
    Opens (Path.way directory) t (t.makeDirectories directory).1 := by
  unfold makeDirectories
  split
  · exact fun p => .inl rfl
  · split
    · intro p
      rcases opens_makeWay t [] (Path.steps (Path.segments directory)).dropLast p with
        same | ⟨free, made, member⟩
      · exact .inl same
      · exact .inr ⟨free, made, Path.passed_dropLast_subset _ _ member⟩
    · exact opens_makeWay t [] _

end Operations

end Tree

end SchemaBindings.Output
