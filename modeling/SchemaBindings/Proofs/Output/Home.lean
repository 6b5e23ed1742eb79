import SchemaBindings.Proofs.Output.Places

/-! Directories whose paths take no step up. Such a path leads to one place, whatever the tree, which
is the home of its files. Making the directory opens the straight way there and touches nothing
else; what other homes have added to the way makes no difference to it. -/

namespace SchemaBindings.Output

namespace Path

/-- No part of the path is a step up. -/
def IsLevel (path : String) : Prop := ".." ∉ segments path

instance (path : String) : Decidable (IsLevel path) := inferInstanceAs (Decidable (¬ _))

/-- The place of a directory, by the names on the way to it. An absolute path starts from a place of
its own. -/
def home (directory : String) : List String :=
  let names := (segments directory).filter fun part => part != "" && part != "."
  if isAbsolute directory then "/" :: names else names

theorem steps_of_level {parts : List String} (level : ".." ∉ parts) :
    steps parts = (parts.filter fun part => part != "" && part != ".").map .down := by
  induction parts with
  | nil => rfl
  | cons part rest ih =>
    obtain ⟨first, later⟩ := not_or.1 (mt List.mem_cons.2 level)
    have behind := ih later
    unfold steps at behind ⊢
    rw [List.filterMap_cons, behind]
    split
    · rename_i nowhere
      split at nowhere <;> simp_all
    · rename_i step leads
      split at leads <;> simp_all

theorem steps_home {directory : String} (level : IsLevel directory)
    (relative : isAbsolute directory = false) :
    steps (segments directory) = (home directory).map .down := by
  simp only [home, relative, Bool.false_eq_true, if_false]
  exact steps_of_level level

theorem follow_down (place names : List String) :
    follow place (names.map .down) = some (place ++ names) := by
  induction names generalizing place with
  | nil => rw [List.map_nil, follow, List.append_nil]
  | cons name rest ih => rw [List.map_cons, follow, ih, List.append_cons place name rest]

end Path

namespace Tree

variable {t s made : Tree} {home place p : List String} {name directory : String}

/-- Directories stand all the way to a place, and there too. -/
def IsOpen (t : Tree) (place : List String) : Prop := ∀ p, p <+: place → t.isDirectory p = true

theorem isOpen_top (t : Tree) : t.IsOpen [] := by
  intro p top
  rw [List.prefix_nil.1 top]
  rfl

theorem isOpen_concat :
    t.IsOpen (place ++ [name]) ↔ t.IsOpen place ∧ t.isDirectory (place ++ [name]) = true := by
  constructor
  · intro opened
    exact ⟨fun p before => opened p (before.trans (List.prefix_append ..)),
      opened _ List.prefix_rfl⟩
  · rintro ⟨opened, last⟩ p before
    rcases List.prefix_concat_iff.1 before with rfl | before
    · exact last
    · exact opened p before

theorem isOpen_iff_of_dropLast (opened : t.IsOpen home.dropLast) :
    t.IsOpen home ↔ t.isDirectory home = true := by
  rcases List.eq_nil_or_concat home with rfl | ⟨front, last, rfl⟩
  · exact iff_of_true (isOpen_top t) rfl
  · rw [List.concat_eq_append] at opened ⊢
    rw [List.dropLast_concat] at opened
    rw [isOpen_concat]
    exact and_iff_right opened

theorem walk_down (opened : t.IsOpen place) (names : List String) :
    t.walk place (names.map .down) = some p ↔ t.IsOpen (place ++ names) ∧ p = place ++ names := by
  induction names generalizing place with
  | nil => simp [walk, opened, eq_comm]
  | cons name rest ih =>
    rw [List.map_cons, walk, List.append_cons place name rest]
    by_cases there : t.isDirectory (place ++ [name]) = true
    · rw [if_pos there]
      exact ih (isOpen_concat.2 ⟨opened, there⟩)
    · rw [if_neg there]
      have shut : ¬ t.IsOpen (place ++ [name] ++ rest) := fun opened =>
        there (opened _ (List.prefix_append ..))
      exact iff_of_false (Option.some_ne_none p).symm fun both => shut both.1

theorem isSome_walk_home : (t.walk [] (home.map .down)).isSome = true ↔ t.IsOpen home := by
  rw [Option.isSome_iff_exists]
  simp only [walk_down (isOpen_top t), List.nil_append, exists_eq_right]

/-- The last name is short enough for a directory or a file. -/
def Fits (place : List String) : Prop := (place.getLast?.getD "").utf8ByteSize ≤ nameLimit

theorem fits_concat : Fits (place ++ [name]) ↔ name.utf8ByteSize ≤ nameLimit := by
  rw [Fits, List.getLast?_concat, Option.getD_some]

/-- A place holds what it held, or nothing stood there and now a directory does. -/
def Kept (t s : Tree) (p : List String) : Prop :=
  s.entry? p = t.entry? p ∨ t.entry? p = none ∧ s.entry? p = some .directory ∧ Fits p

theorem Kept.refl (t : Tree) (p : List String) : Kept t t p := .inl rfl

theorem Kept.trans (first : Kept t made p) (second : Kept made s p) : Kept t s p := by
  rcases first with same | ⟨free, there, fits⟩
  · rw [Kept, ← same]
    exact second
  · rcases second with same | ⟨absent, -⟩
    · exact .inr ⟨free, same.trans there, fits⟩
    · rw [there] at absent
      cases absent

theorem Kept.isDirectory (kept : Kept t s p) (there : t.isDirectory p = true) :
    s.isDirectory p = true :=
  isDirectory_of_kept kept there

theorem Kept.of_some {entry : Entry} (kept : Kept t s p) (there : t.entry? p = some entry) :
    s.entry? p = some entry :=
  entry?_of_kept kept there

theorem kept_put (free : t.entry? place = none) (inner : place ≠ []) (fits : Fits place)
    (p : List String) : Kept t (t.put place .directory) p := by
  rw [Kept, entry?_put inner]
  by_cases here : p = place
  · subst here
    exact .inr ⟨free, if_pos rfl, fits⟩
  · exact .inl (if_neg here)

/-- The trees differ on the way to a home by directories at most, which the second one has more.
What stands at home itself is the same. -/
structure SameWay (home : List String) (t s : Tree) : Prop where
  onWay : ∀ p, p <+: home → Kept t s p
  arrival : s.entry? home = t.entry? home

/-- Everything at home and below is the same too. -/
structure Alike (home : List String) (t s : Tree) : Prop where
  onWay : ∀ p, p <+: home → Kept t s p
  inside : ∀ p, home <+: p → s.entry? p = t.entry? p

theorem Alike.sameWay (alike : Alike home t s) : SameWay home t s :=
  ⟨alike.onWay, alike.inside home List.prefix_rfl⟩

theorem Alike.refl (home : List String) (t : Tree) : Alike home t t :=
  ⟨fun p _ => .refl t p, fun _ _ => rfl⟩

theorem Alike.trans (first : Alike home t made) (second : Alike home made s) : Alike home t s where
  onWay p before := (first.onWay p before).trans (second.onWay p before)
  inside p below := (second.inside p below).trans (first.inside p below)

/-- Neither place is on the way to the other. -/
def Beside (place other : List String) : Prop := ¬ place <+: other ∧ ¬ other <+: place

theorem Beside.symm {other : List String} (beside : Beside place other) : Beside other place :=
  And.symm beside

instance (place other : List String) : Decidable (Beside place other) :=
  inferInstanceAs (Decidable (_ ∧ _))

/-- What is done for homes stays there, but for directories made on the way. -/
structure Confined (homes : List (List String)) (t s : Tree) : Prop where
  onWay : ∀ p, (∀ home ∈ homes, ¬ home <+: p) → Kept t s p
  outside : ∀ p, (∀ home ∈ homes, Beside home p) → s.entry? p = t.entry? p

theorem Confined.refl (homes : List (List String)) (t : Tree) : Confined homes t t :=
  ⟨fun p _ => .refl t p, fun _ _ => rfl⟩

theorem confined_singleton (onWay : ∀ p, ¬ home <+: p → Kept t s p)
    (outside : ∀ p, Beside home p → s.entry? p = t.entry? p) : Confined [home] t s where
  onWay p off := onWay p (off home List.mem_cons_self)
  outside p off := outside p (off home List.mem_cons_self)

theorem Confined.cons {homes : List (List String)} (first : Confined [home] t made)
    (later : Confined homes made s) : Confined (home :: homes) t s where
  onWay p beside := by
    obtain ⟨here, others⟩ := List.forall_mem_cons.1 beside
    exact (first.onWay p (List.forall_mem_singleton.2 here)).trans (later.onWay p others)
  outside p off := by
    obtain ⟨here, others⟩ := List.forall_mem_cons.1 off
    exact (later.outside p others).trans (first.outside p (List.forall_mem_singleton.2 here))

/-- What is done for some homes makes no difference to one beside them. -/
theorem Confined.alike {homes : List (List String)} (confined : Confined homes t s)
    (beside : ∀ other ∈ homes, Beside home other) : Alike home t s where
  onWay p before :=
    confined.onWay p fun other member below => (beside other member).2 (below.trans before)
  inside p below :=
    confined.outside p fun other member =>
      ⟨fun above => (List.prefix_or_prefix_of_prefix below above).elim (beside other member).1
        (beside other member).2, fun before => (beside other member).1 (below.trans before)⟩

theorem SameWay.isOpen (same : SameWay home t s) (before : place <+: home)
    (opened : t.IsOpen place) : s.IsOpen place := fun p between =>
  (same.onWay p (between.trans before)).isDirectory (opened p between)

theorem SameWay.put (same : SameWay home t s) (inner : place ≠ []) (entry : Entry) :
    SameWay home (t.put place entry) (s.put place entry) where
  onWay p before := by
    rw [Kept, entry?_put inner, entry?_put inner]
    split
    · exact .inl rfl
    · exact same.onWay p before
  arrival := by rw [entry?_put inner, entry?_put inner, same.arrival]

/-- A directory that one tree lacks is made where the other one has it. -/
theorem SameWay.put_left (same : SameWay home t s) (inner : place ≠ [])
    (there : s.entry? place = some .directory) :
    SameWay home (t.put place .directory) s where
  onWay p before := by
    rw [Kept, entry?_put inner]
    split
    · rename_i here
      exact .inl (here ▸ there)
    · exact same.onWay p before
  arrival := by
    rw [entry?_put inner]
    split
    · rename_i here
      exact here ▸ there
    · exact same.arrival

section MakingWay

/-- The way is made of places that were free. -/
theorem kept_makeWay (t : Tree) (place names : List String) (p : List String) :
    Kept t (t.makeWay place (names.map .down)).1 p := by
  induction names generalizing t place with
  | nil => exact .refl t p
  | cons name rest ih =>
    rw [List.map_cons, makeWay]
    split
    · exact ih t _
    · exact .refl t p
    · rename_i free
      split
      · rename_i short
        exact (kept_put free (by simp) (fits_concat.2 short) p).trans (ih _ _)
      · exact .refl t p

theorem entry?_makeWay_of_beside (t : Tree) (place names : List String)
    (beside : ¬ p <+: place ++ names) :
    entry? (t.makeWay place (names.map .down)).1 p = t.entry? p := by
  induction names generalizing t place with
  | nil => rfl
  | cons name rest ih =>
    rw [List.append_cons] at beside
    rw [List.map_cons, makeWay]
    split
    · exact ih t _ beside
    · rfl
    · split
      · have other : p ≠ place ++ [name] := fun same => beside (same ▸ List.prefix_append ..)
        rw [ih _ _ beside, entry?_put (by simp), if_neg other]
      · rfl

/-- A way that is made is open to its end. -/
theorem isOpen_makeWay (opened : t.IsOpen place) {names : List String}
    (makes : t.makeWay place (names.map .down) = (made, true)) : made.IsOpen (place ++ names) := by
  induction names generalizing t place with
  | nil =>
    obtain ⟨rfl, -⟩ := Prod.mk.inj makes
    rw [List.append_nil]
    exact opened
  | cons name rest ih =>
    rw [List.append_cons]
    rw [List.map_cons, makeWay] at makes
    split at makes
    · rename_i there
      exact ih (isOpen_concat.2 ⟨opened, by rw [isDirectory, there]⟩) makes
    · cases makes
    · rename_i free
      split at makes
      · rename_i short
        have kept := kept_put free (by simp) (fits_concat.2 short)
        refine ih (isOpen_concat.2 ⟨fun p before => ?_, ?_⟩) makes
        · exact (kept p).isDirectory (opened p before)
        · rw [isDirectory, entry?_put (by simp), if_pos rfl]
      · cases makes

/-- Whether a way can be made does not depend on how much of it others have made. -/
theorem makeWay_sameWay (same : SameWay home t s) {names : List String}
    (before : place ++ names <+: home) :
    (s.makeWay place (names.map .down)).2 = (t.makeWay place (names.map .down)).2 ∧
      SameWay home (t.makeWay place (names.map .down)).1
        (s.makeWay place (names.map .down)).1 := by
  induction names generalizing t s place with
  | nil => exact ⟨rfl, same⟩
  | cons name rest ih =>
    rw [List.append_cons] at before
    have inner : place ++ [name] ≠ [] := by simp
    have kept := same.onWay _ ((List.prefix_append ..).trans before)
    rw [List.map_cons, makeWay, makeWay]
    cases there : t.entry? (place ++ [name]) with
    | some entry =>
      rw [kept.of_some there]
      cases entry with
      | directory => exact ih same before
      | file contents => exact ⟨rfl, same⟩
    | none =>
      rcases kept with free | ⟨-, ahead, fits⟩
      · rw [free.trans there]
        by_cases short : name.utf8ByteSize ≤ nameLimit
        · simp only [if_pos short]
          exact ih (same.put inner .directory) before
        · rw [if_neg short, if_neg short]
          exact ⟨rfl, same⟩
      · rw [ahead]
        simp only [if_pos (fits_concat.1 fits)]
        exact ih (same.put_left inner ahead) before

/-- Making a way again changes nothing, also after others have made more of it. -/
theorem makeWay_again {isOpen : Bool} {names : List String}
    (makes : t.makeWay place (names.map .down) = (made, isOpen)) (same : SameWay home made s)
    (before : place ++ names <+: home) : s.makeWay place (names.map .down) = (s, isOpen) := by
  induction names generalizing t place with
  | nil =>
    obtain ⟨-, rfl⟩ := Prod.mk.inj makes
    rfl
  | cons name rest ih =>
    rw [List.append_cons] at before
    have kept := same.onWay _ ((List.prefix_append ..).trans before)
    have later (t : Tree) := kept_makeWay t (place ++ [name]) rest (place ++ [name])
    simp only [List.map_cons, makeWay] at makes ⊢
    cases there : t.entry? (place ++ [name]) with
    | some entry =>
      rw [there] at makes
      cases entry with
      | directory =>
        dsimp only at makes
        have stays := (later t).of_some there
        rw [makes] at stays
        rw [kept.of_some stays]
        exact ih makes before
      | file contents =>
        obtain ⟨rfl, rfl⟩ := Prod.mk.inj makes
        rw [kept.of_some there]
    | none =>
      rw [there] at makes
      by_cases short : name.utf8ByteSize ≤ nameLimit
      · simp only [if_pos short] at makes
        have put : entry? (t.put (place ++ [name]) .directory) (place ++ [name]) =
            some .directory := by
          rw [entry?_put (by simp), if_pos rfl]
        have stays := (later _).of_some put
        rw [makes] at stays
        rw [kept.of_some stays]
        exact ih makes before
      · simp only [if_neg short] at makes
        obtain ⟨rfl, rfl⟩ := Prod.mk.inj makes
        rcases kept with free | ⟨-, -, fits⟩
        · rw [free.trans there]
          exact if_neg short
        · exact absurd (fits_concat.1 fits) short

end MakingWay

section Homes

variable {contents : ByteArray}

theorem makeDirectories_of_not_usable (useless : isUsable directory = false) (t : Tree) :
    t.makeDirectories directory = (t, false) := by
  simp [makeDirectories, useless]

theorem usable_of_makes (makes : t.makeDirectories directory = (made, true)) :
    isUsable directory = true := by
  cases usable : isUsable directory with
  | true => rfl
  | false =>
    rw [makeDirectories_of_not_usable usable] at makes
    cases makes

theorem steps_of_usable (level : Path.IsLevel directory) (usable : isUsable directory = true) :
    Path.steps (Path.segments directory) = (Path.home directory).map .down := by
  refine Path.steps_home level ?_
  rw [isUsable, Bool.and_eq_true, Bool.not_eq_true'] at usable
  exact usable.2

/-- The way to a home is made, to its end or but for the last step, and then a directory has to be
there. -/
theorem makeDirectories_eq (level : Path.IsLevel directory) (usable : isUsable directory = true) :
    ∃ names, (Path.home directory).dropLast <+: names ∧ names <+: Path.home directory ∧
      ∀ t : Tree, t.makeDirectories directory =
        ((t.makeWay [] (names.map .down)).1, (t.makeWay [] (names.map .down)).2 &&
          (t.makeWay [] (names.map .down)).1.isDirectory (Path.home directory)) := by
  have opened {t : Tree} {names : List String} (makes : (t.makeWay [] (names.map .down)).2 = true) :
      (t.makeWay [] (names.map .down)).1.IsOpen names :=
    isOpen_makeWay (isOpen_top t) (Prod.ext rfl makes)
  by_cases dot : Path.endsInDot directory = true
  · refine ⟨(Path.home directory).dropLast, List.prefix_rfl, List.dropLast_prefix _, fun t => ?_⟩
    simp only [makeDirectories, usable, Bool.not_true, Bool.false_eq_true, if_false, if_pos dot,
      steps_of_usable level usable, ← List.map_dropLast]
    cases makes : (t.makeWay [] ((Path.home directory).dropLast.map .down)).2 with
    | false => rfl
    | true =>
      refine congrArg _ (congrArg _ (Bool.eq_iff_iff.2 ?_))
      exact isSome_walk_home.trans (isOpen_iff_of_dropLast (opened makes))
  · refine ⟨Path.home directory, List.dropLast_prefix _, List.prefix_rfl, fun t => ?_⟩
    simp only [makeDirectories, usable, Bool.not_true, Bool.false_eq_true, if_false, if_neg dot,
      steps_of_usable level usable]
    refine Prod.ext rfl (Bool.eq_iff_iff.2 ?_)
    rw [Bool.and_eq_true]
    exact (and_iff_left_of_imp fun makes => opened makes _ List.prefix_rfl).symm

theorem confined_makeDirectories (level : Path.IsLevel directory) (t : Tree) :
    Confined [Path.home directory] t (t.makeDirectories directory).1 := by
  by_cases usable : isUsable directory = true
  · obtain ⟨names, -, before, eq⟩ := makeDirectories_eq level usable
    rw [eq]
    exact confined_singleton (fun p _ => kept_makeWay t [] names p) fun p off =>
      entry?_makeWay_of_beside t [] names fun between => off.2 (between.trans before)
  · rw [makeDirectories_of_not_usable (Bool.eq_false_iff.2 usable)]
    exact .refl _ t

/-- Making a directory touches nothing below it. -/
theorem entry?_makeDirectories_of_below (level : Path.IsLevel directory) (t : Tree)
    (below : Path.home directory <+: p) (further : p ≠ Path.home directory) :
    entry? (t.makeDirectories directory).1 p = t.entry? p := by
  by_cases usable : isUsable directory = true
  · obtain ⟨names, -, before, eq⟩ := makeDirectories_eq level usable
    rw [eq]
    refine entry?_makeWay_of_beside t [] names fun between => further ?_
    exact (between.trans before).eq_of_length_le below.length_le
  · rw [makeDirectories_of_not_usable (Bool.eq_false_iff.2 usable)]

theorem isOpen_makeDirectories (level : Path.IsLevel directory)
    (makes : t.makeDirectories directory = (made, true)) : made.IsOpen (Path.home directory) := by
  obtain ⟨names, reach, -, eq⟩ := makeDirectories_eq level (usable_of_makes makes)
  obtain ⟨rfl, flags⟩ := Prod.mk.inj ((eq t).symm.trans makes)
  obtain ⟨isOpen, there⟩ := Bool.and_eq_true_iff.1 flags
  have opened := isOpen_makeWay (isOpen_top t) (Prod.ext rfl isOpen)
  exact (isOpen_iff_of_dropLast fun p before => opened p (before.trans reach)).2 there

theorem SameWay.isDirectory_home (same : SameWay home t s) :
    s.isDirectory home = t.isDirectory home := by
  rw [isDirectory, same.arrival, isDirectory]

/-- Whether a directory can be made does not depend on how much of the way to it others have
made. -/
theorem makeDirectories_sameWay (level : Path.IsLevel directory)
    (same : SameWay (Path.home directory) t s) :
    (s.makeDirectories directory).2 = (t.makeDirectories directory).2 ∧
      SameWay (Path.home directory) (t.makeDirectories directory).1
        (s.makeDirectories directory).1 := by
  by_cases usable : isUsable directory = true
  · obtain ⟨names, -, before, eq⟩ := makeDirectories_eq level usable
    obtain ⟨flags, made⟩ := makeWay_sameWay same (show [] ++ names <+: _ from before)
    rw [eq, eq]
    exact ⟨by rw [flags, made.isDirectory_home], made⟩
  · have useless := makeDirectories_of_not_usable (Bool.eq_false_iff.2 usable)
    rw [useless, useless]
    exact ⟨rfl, same⟩

theorem makeDirectories_alike (level : Path.IsLevel directory)
    (alike : Alike (Path.home directory) t s) :
    (s.makeDirectories directory).2 = (t.makeDirectories directory).2 ∧
      Alike (Path.home directory) (t.makeDirectories directory).1
        (s.makeDirectories directory).1 := by
  obtain ⟨flags, same⟩ := makeDirectories_sameWay level alike.sameWay
  refine ⟨flags, same.onWay, fun p below => ?_⟩
  by_cases here : p = Path.home directory
  · rw [here, same.arrival]
  · rw [entry?_makeDirectories_of_below level s below here, alike.inside p below,
      entry?_makeDirectories_of_below level t below here]

/-- Making a directory again changes nothing, also after others have made more of the way. -/
theorem makeDirectories_again {isOpen : Bool} (level : Path.IsLevel directory)
    (makes : t.makeDirectories directory = (made, isOpen))
    (same : SameWay (Path.home directory) made s) : s.makeDirectories directory = (s, isOpen) := by
  by_cases usable : isUsable directory = true
  · obtain ⟨names, -, before, eq⟩ := makeDirectories_eq level usable
    obtain ⟨rfl, rfl⟩ := Prod.mk.inj ((eq t).symm.trans makes)
    have again := makeWay_again (Prod.ext rfl rfl) same (show [] ++ names <+: _ from before)
    rw [eq, again, same.isDirectory_home]
  · rw [makeDirectories_of_not_usable (Bool.eq_false_iff.2 usable)] at makes ⊢
    obtain ⟨-, rfl⟩ := Prod.mk.inj makes
    rfl

/-- In an open home a file can be written where no directory stands. -/
theorem write?_home (level : Path.IsLevel directory) (plain : Path.IsPlain name)
    (usable : isUsable directory = true) (opened : t.IsOpen (Path.home directory)) :
    t.write? (Path.join directory name) contents =
      if isUsable (Path.join directory name) && !t.isDirectory (Path.home directory ++ [name]) &&
        decide (name.utf8ByteSize ≤ nameLimit) then
      some (t.put (Path.home directory ++ [name]) (.file contents)) else none := by
  have walks : t.walk [] ((Path.home directory).map .down) = some (Path.home directory) :=
    (walk_down (isOpen_top t) _).2 ⟨opened, rfl⟩
  rw [write?, place?_eq, plain.file?_join, steps_of_usable level usable]
  simp only [Option.bind_some, walks, Option.map_some]
  cases isUsable (Path.join directory name) with
  | false => rfl
  | true =>
    simp only [if_true, Option.bind_eq_bind, Option.bind_some, List.getLast?_concat,
      Option.getD_some, Bool.true_and]
    cases t.isDirectory (Path.home directory ++ [name]) with
    | false => simp
    | true => simp

end Homes

end Tree

end SchemaBindings.Output
