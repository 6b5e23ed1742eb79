import Mathlib.Data.List.Pairwise
import Mathlib.Data.List.TakeWhile
import SchemaBindings.Proofs.Output.Home
import SchemaBindings.Proofs.Output.Rollback

/-! One target whose files have a home. What is reported of it, and what it leaves at home, depend on
what stood there and on no other home. Done again, it changes nothing. -/

namespace SchemaBindings.Output

open Binding (File Rendered)
open Output.Path (IsLevel IsPlain home)
open Output.Tree (Alike Confined Kept SameWay)

variable {t s t' made : Tree} {directory : String} {files : List File} {f : File} {r : Rendered}
  {p : List String}

/-- The place of a file with a plain name. -/
def placeIn (directory : String) (f : File) : List String := home directory ++ [f.name]

theorem home_prefix_placeIn (directory : String) (f : File) :
    home directory <+: placeIn directory f :=
  List.prefix_append ..

theorem not_placeIn_prefix_home (directory : String) (f : File) :
    ¬ placeIn directory f <+: home directory := by
  intro before
  have longer := before.length_le
  rw [placeIn, List.length_append, List.length_singleton] at longer
  omega

/-- Nothing is in the way of a file in an open home. -/
def writable (directory : String) (t : Tree) (f : File) : Bool :=
  Tree.isUsable (pathIn directory f) && !t.isDirectory (placeIn directory f) &&
    decide (f.name.utf8ByteSize ≤ Tree.nameLimit)

/-- What becomes of the places of files, whose tree was the first one when their home was open: all
files are written, or those before the first one that cannot be are gone. -/
structure Settled (directory : String) (files : List File) (t t' : Tree) : Prop where
  placed : ∀ f ∈ files, t'.entry? (placeIn directory f) =
    if files.all (writable directory t) then some (.file f.contents.toUTF8)
    else if f ∈ files.takeWhile (writable directory t) then none
    else t.entry? (placeIn directory f)
  elsewhere : ∀ p, (∀ f ∈ files, p ≠ placeIn directory f) → t'.entry? p = t.entry? p

/-- Of files that are apart only one stands at a place. -/
theorem Apart.eq_of_standsAt (apart : Apart directory files) {g : File} (first : f ∈ files)
    (second : g ∈ files) (stands : StandsAt directory f p) (too : StandsAt directory g p) :
    f = g := by
  by_contra different
  have both : Std.Symm fun f g : File =>
      ∀ place, StandsAt directory f place → ¬ StandsAt directory g place :=
    ⟨fun f g apart place there here => apart place here there⟩
  exact apart.forall first second different p stands too

section Files

variable (level : IsLevel directory) (usable : Tree.isUsable directory = true)

include level usable

theorem standsAt_iff (plain : IsPlain f.name) :
    StandsAt directory f p ↔ p = placeIn directory f := by
  rw [StandsAt, pathIn, plain.place?_join, Tree.steps_of_usable level usable, Path.follow_down,
    Option.map_some, Option.some_inj]
  exact eq_comm

theorem write?_pathIn (plain : IsPlain f.name) (opened : t.IsOpen (home directory)) :
    t.write? (pathIn directory f) f.contents.toUTF8 =
      if writable directory t f then
        some (t.put (placeIn directory f) (.file f.contents.toUTF8)) else none :=
  Tree.write?_home level plain usable opened

theorem read?_pathIn (plain : IsPlain f.name) {contents : ByteArray} :
    t.read? (pathIn directory f) = some contents ↔
      Tree.isUsable (pathIn directory f) = true ∧ t.IsOpen (home directory) ∧
        t.entry? (placeIn directory f) = some (.file contents) := by
  have leads (place : List String) : t.place? (pathIn directory f) = some place ↔
      Tree.isUsable (pathIn directory f) = true ∧ t.IsOpen (home directory) ∧
        placeIn directory f = place := by
    rw [Tree.place?_eq, pathIn, plain.file?_join, Tree.steps_of_usable level usable]
    split
    · rename_i short
      simp [short, Tree.walk_down (Tree.isOpen_top t), placeIn]
    · rename_i long
      exact iff_of_false (Option.some_ne_none place).symm fun both => long both.1
  rw [Tree.read?_eq_some]
  constructor
  · rintro ⟨place, found, there⟩
    obtain ⟨short, opened, rfl⟩ := (leads place).1 found
    exact ⟨short, opened, there⟩
  · rintro ⟨short, opened, there⟩
    exact ⟨_, (leads _).2 ⟨short, opened, rfl⟩, there⟩

theorem Wrote.writable (wrote : Wrote directory t files t') (opened : t.IsOpen (home directory))
    (plain : ∀ f ∈ files, IsPlain f.name) : ∀ f ∈ files, writable directory t f = true := by
  induction wrote with
  | nil => exact List.forall_mem_nil _
  | @cons t next last f rest writes later ih =>
    obtain ⟨first, others⟩ := List.forall_mem_cons.1 plain
    have same := Tree.isDirectory_of_write? writes
    refine List.forall_mem_cons.2 ⟨?_, fun g member => ?_⟩
    · rw [write?_pathIn level usable first opened] at writes
      split at writes
      · assumption
      · cases writes
    · have stays := ih (fun p before => (same p).trans (opened p before)) others g member
      rwa [Output.writable, same] at stays

/-- Once a home is open, its files settle in one of two ways. -/
theorem run_writeFiles_home (opened : t.IsOpen (home directory))
    (plain : ∀ f ∈ files, IsPlain f.name) (apart : Apart directory files) :
    ∃ t', (writeFiles Tree.disk directory [] files).run t =
        (if files.all (writable directory t) then some (files.map (pathIn directory)) else none,
          t') ∧
      Settled directory files t t' := by
  have stands {f : File} (member : f ∈ files) {p : List String} :
      StandsAt directory f p ↔ p = placeIn directory f :=
    standsAt_iff level usable (plain f member)
  rcases @run_writeFiles directory [] files t with
    ⟨t', wrote, run⟩ | ⟨before, f, after, last, split, wrote, fails, run⟩
  · have all : files.all (writable directory t) = true :=
      List.all_eq_true.2 (wrote.writable level usable opened plain)
    refine ⟨t', by rw [run, all]; rfl, fun f member => ?_, fun p other => ?_⟩
    · rw [if_pos all]
      exact wrote.entry?_of_standsAt apart member ((stands member).2 rfl)
    · exact wrote.entry?_of_ne fun f member here => other f member ((stands member).1 here)
  · have inside : before ⊆ files := split ▸ List.subset_append_left ..
    have member : f ∈ files := split ▸ List.mem_append_right _ List.mem_cons_self
    have written := wrote.writable level usable opened fun g listed => plain g (inside listed)
    have stopped : writable directory t f = false := by
      have same := wrote.isDirectory_eq
      have reaches : last.IsOpen (home directory) := fun p between =>
        (same p).trans (opened p between)
      rw [write?_pathIn level usable (plain f member) reaches] at fails
      split at fails
      · cases fails
      · rename_i blocked
        rw [writable, same] at blocked
        exact Bool.eq_false_iff.2 blocked
    have some' : files.all (writable directory t) = false :=
      List.all_eq_false.2 ⟨f, member, by rw [stopped]; exact Bool.false_ne_true⟩
    have first : files.takeWhile (writable directory t) = before := by
      rw [split, List.takeWhile_append_of_pos written, List.takeWhile_cons_of_neg, List.append_nil]
      rw [stopped]
      exact Bool.false_ne_true
    refine ⟨_, by rw [run, some']; rfl, fun g listed => ?_, fun p other => ?_⟩
    · rw [some', first, if_neg Bool.false_ne_true, List.nil_append]
      split
      · rename_i early
        exact wrote.entry?_removed_of_standsAt early ((stands listed).2 rfl)
      · rename_i late
        refine wrote.entry?_removed_of_ne fun h early here => late ?_
        rwa [apart.eq_of_standsAt listed (inside early) ((stands listed).2 rfl) here]
    · exact wrote.entry?_removed_of_ne fun g early here =>
        other g (inside early) ((stands (inside early)).1 here)

end Files

/-- What a target settles to: nothing is done where the home cannot be opened. -/
theorem run_writeTarget_home (level : IsLevel directory) (plain : ∀ f ∈ r.files, IsPlain f.name)
    (apart : Apart directory r.files) {isOpen : Bool}
    (makes : t.makeDirectories directory = (made, isOpen)) :
    ∃ t', (writeTarget Tree.disk directory r).run t =
        (if isOpen && r.files.all (writable directory made) then
          .ok ⟨r.files.map (pathIn directory), r.roster⟩ else .error .io, t') ∧
      if isOpen then Settled directory r.files made t' else t' = made := by
  rw [run_writeTarget makes]
  cases isOpen with
  | false => exact ⟨made, rfl, rfl⟩
  | true =>
    obtain ⟨t', run, settled⟩ := run_writeFiles_home level (Tree.usable_of_makes makes)
      (Tree.isOpen_makeDirectories level makes) plain apart
    refine ⟨t', ?_, settled⟩
    simp only [run, if_true, Bool.true_and]
    cases r.files.all (writable directory made) <;> rfl

theorem Settled.entry?_of_beside (settled : Settled directory files t t')
    (beside : ¬ home directory <+: p) : t'.entry? p = t.entry? p :=
  settled.elsewhere p fun f _ here => beside (here ▸ home_prefix_placeIn directory f)

theorem Settled.entry?_of_before (settled : Settled directory files t t')
    (before : p <+: home directory) : t'.entry? p = t.entry? p :=
  settled.elsewhere p fun f _ here => not_placeIn_prefix_home directory f (here ▸ before)

theorem Settled.sameWay (settled : Settled directory files t t')
    (alike : Alike (home directory) t' s) : SameWay (home directory) t s where
  onWay p before := by
    have kept := alike.onWay p before
    rwa [Kept, settled.entry?_of_before before] at kept
  arrival := by
    rw [alike.inside _ List.prefix_rfl, settled.entry?_of_before List.prefix_rfl]

/-- Files are no directories, before and after. -/
theorem Settled.isDirectory_eq (settled : Settled directory files t t') (p : List String) :
    t'.isDirectory p = t.isDirectory p := by
  have file_free {f : File} (free : writable directory t f = true) :
      t.isDirectory (placeIn directory f) = false := by
    rw [writable, Bool.and_eq_true, Bool.and_eq_true, Bool.not_eq_true'] at free
    exact free.1.2
  by_cases output : ∃ f ∈ files, p = placeIn directory f
  · obtain ⟨f, member, rfl⟩ := output
    have placed := settled.placed f member
    split at placed
    · rename_i all
      rw [file_free (List.all_eq_true.1 all f member), Tree.isDirectory, placed]
    · split at placed
      · rename_i early
        rw [file_free (List.mem_takeWhile_imp early), Tree.isDirectory, placed]
      · rw [Tree.isDirectory, placed, Tree.isDirectory]
  · rw [Tree.isDirectory, settled.elsewhere p fun f member here => output ⟨f, member, here⟩,
      Tree.isDirectory]

theorem writable_congr (same : ∀ p, home directory <+: p → s.isDirectory p = t.isDirectory p) :
    writable directory s = writable directory t :=
  funext fun f => by rw [writable, same _ (home_prefix_placeIn directory f), writable]

theorem isDirectory_of_alike (alike : Alike (home directory) t s) :
    ∀ p, home directory <+: p → s.isDirectory p = t.isDirectory p := fun p below => by
  rw [Tree.isDirectory, alike.inside p below, Tree.isDirectory]

/-- What can be read at home can be read in all trees that are alike there. -/
theorem read?_of_alike (level : IsLevel directory) (usable : Tree.isUsable directory = true)
    (plain : IsPlain f.name) (alike : Alike (home directory) t s) {contents : ByteArray}
    (there : t.read? (pathIn directory f) = some contents) :
    s.read? (pathIn directory f) = some contents := by
  obtain ⟨short, opened, stands⟩ := (read?_pathIn level usable plain).1 there
  refine (read?_pathIn level usable plain).2 ⟨short, ?_, ?_⟩
  · exact alike.sameWay.isOpen List.prefix_rfl opened
  · exact (alike.inside _ (home_prefix_placeIn directory f)).trans stands

section Targets

variable (level : IsLevel directory) (plain : ∀ f ∈ r.files, IsPlain f.name)
  (apart : Apart directory r.files)

include level plain apart

/-- What others have made of the way to a home makes no difference to its target. -/
theorem writeTarget_alike (alike : Alike (home directory) t s) :
    ∃ outcome t' s', (writeTarget Tree.disk directory r).run t = (outcome, t') ∧
      (writeTarget Tree.disk directory r).run s = (outcome, s') ∧
      Alike (home directory) t' s' := by
  obtain ⟨flags, madeAlike⟩ := Tree.makeDirectories_alike level alike
  cases makes : t.makeDirectories directory with
  | mk made opens =>
  cases makesToo : s.makeDirectories directory with
  | mk madeToo isOpen =>
  simp only [makes, makesToo] at flags madeAlike
  subst flags
  obtain ⟨t', run, settled⟩ := run_writeTarget_home level plain apart makes
  obtain ⟨s', runToo, settledToo⟩ := run_writeTarget_home level plain apart makesToo
  have same := writable_congr (isDirectory_of_alike madeAlike)
  rw [same] at runToo
  refine ⟨_, t', s', run, runToo, ?_⟩
  cases isOpen with
  | false =>
    obtain rfl : t' = made := settled
    obtain rfl : s' = madeToo := settledToo
    exact madeAlike
  | true =>
    rw [if_pos rfl] at settled settledToo
    constructor
    case onWay =>
      intro p before
      rw [Kept, settled.entry?_of_before before, settledToo.entry?_of_before before]
      exact madeAlike.onWay p before
    case inside =>
      intro p below
      by_cases output : ∃ f ∈ r.files, p = placeIn directory f
      · obtain ⟨f, member, rfl⟩ := output
        rw [settledToo.placed f member, settled.placed f member, same, madeAlike.inside _ below]
      · have other : ∀ f ∈ r.files, p ≠ placeIn directory f :=
          fun f member here => output ⟨f, member, here⟩
        rw [settledToo.elsewhere p other, settled.elsewhere p other, madeAlike.inside p below]

/-- A target changes nothing but its home and the way to it. -/
theorem confined_writeTarget (t : Tree) :
    Confined [home directory] t ((writeTarget Tree.disk directory r).run t).2 := by
  have confined := Tree.confined_makeDirectories level t
  cases makes : t.makeDirectories directory with
  | mk made isOpen =>
  rw [makes] at confined
  obtain ⟨t', run, settled⟩ := run_writeTarget_home level plain apart makes
  rw [run]
  cases isOpen with
  | false =>
    obtain rfl : t' = made := settled
    exact confined
  | true =>
    rw [if_pos rfl] at settled
    refine Tree.confined_singleton (fun p off => ?_) (fun p off => ?_)
    · rw [Kept, settled.entry?_of_beside off]
      exact confined.onWay p (List.forall_mem_singleton.2 off)
    · rw [settled.entry?_of_beside off.1]
      exact confined.outside p (List.forall_mem_singleton.2 off)

/-- A target that is done again has the same outcome and changes nothing, also after others have made
more of the way. -/
theorem writeTarget_again {outcome : Except Failure Written}
    (run : (writeTarget Tree.disk directory r).run t = (outcome, t'))
    (alike : Alike (home directory) t' s) :
    ∃ s', (writeTarget Tree.disk directory r).run s = (outcome, s') ∧
      ∀ p, s'.entry? p = s.entry? p := by
  cases makes : t.makeDirectories directory with
  | mk made isOpen =>
  obtain ⟨last, first, settled⟩ := run_writeTarget_home level plain apart makes
  obtain ⟨rfl, rfl⟩ := Prod.mk.inj (first.symm.trans run)
  cases isOpen with
  | false =>
    obtain rfl : last = made := settled
    have again := Tree.makeDirectories_again level makes alike.sameWay
    obtain ⟨s', second, stays⟩ := run_writeTarget_home level plain apart again
    obtain rfl : s' = s := stays
    exact ⟨s', second, fun _ => rfl⟩
  | true =>
    rw [if_pos rfl] at settled
    have again := Tree.makeDirectories_again level makes (settled.sameWay alike)
    obtain ⟨s', second, resettled⟩ := run_writeTarget_home level plain apart again
    rw [if_pos rfl] at resettled
    have same : writable directory s = writable directory made :=
      writable_congr fun p below =>
        (isDirectory_of_alike alike p below).trans (settled.isDirectory_eq p)
    rw [same] at second
    refine ⟨s', second, fun p => ?_⟩
    by_cases output : ∃ f ∈ r.files, p = placeIn directory f
    · -- The first run has left this place as the second one leaves it.
      obtain ⟨f, member, rfl⟩ := output
      have there := alike.inside _ (home_prefix_placeIn directory f)
      rw [resettled.placed f member, same, there, settled.placed f member]
      split
      · rfl
      · split <;> rfl
    · exact resettled.elsewhere p fun f member here => output ⟨f, member, here⟩

end Targets

section Reports

/-- An order whose files have plain names and places of their own, in a directory whose path takes no
step up. -/
structure Homely (order : Order) (result : Except Unsupported Rendered) : Prop where
  level : IsLevel order.directory
  plain : ∀ r, result = .ok r → ∀ f ∈ r.files, IsPlain f.name
  apart : ∀ r, result = .ok r → Apart order.directory r.files

variable {order : Order} {result : Except Unsupported Rendered} (homely : Homely order result)

theorem run_report_ok (order : Order) (r : Rendered) (t : Tree) :
    (report Tree.disk order (.ok r)).run t =
      (⟨order, ((writeTarget Tree.disk order.directory r).run t).1⟩,
        ((writeTarget Tree.disk order.directory r).run t).2) :=
  rfl

include homely

theorem report_alike (alike : Alike (home order.directory) t s) :
    ∃ first t' s', (report Tree.disk order result).run t = (first, t') ∧
      (report Tree.disk order result).run s = (first, s') ∧
      Alike (home order.directory) t' s' := by
  cases result with
  | error fault => exact ⟨_, t, s, rfl, rfl, alike⟩
  | ok r =>
    obtain ⟨outcome, t', s', run, runToo, same⟩ :=
      writeTarget_alike homely.level (homely.plain r rfl) (homely.apart r rfl) alike
    refine ⟨⟨order, outcome⟩, t', s', ?_, ?_, same⟩
    · rw [run_report_ok, run]
    · rw [run_report_ok, runToo]

theorem confined_report (t : Tree) :
    Confined [home order.directory] t ((report Tree.disk order result).run t).2 := by
  cases result with
  | error fault => exact .refl _ t
  | ok r => exact confined_writeTarget homely.level (homely.plain r rfl) (homely.apart r rfl) t

theorem report_again {first : Report} (run : (report Tree.disk order result).run t = (first, t'))
    (alike : Alike (home order.directory) t' s) :
    ∃ s', (report Tree.disk order result).run s = (first, s') ∧ ∀ p, s'.entry? p = s.entry? p := by
  cases result with
  | error fault =>
    obtain ⟨rfl, -⟩ := Prod.mk.inj run
    exact ⟨s, rfl, fun _ => rfl⟩
  | ok r =>
    cases ran : (writeTarget Tree.disk order.directory r).run t with
    | mk outcome last =>
    rw [run_report_ok, ran] at run
    obtain ⟨rfl, rfl⟩ := Prod.mk.inj run
    obtain ⟨s', again, same⟩ :=
      writeTarget_again homely.level (homely.plain r rfl) (homely.apart r rfl) ran alike
    refine ⟨s', ?_, same⟩
    rw [run_report_ok, again]

end Reports

end SchemaBindings.Output
