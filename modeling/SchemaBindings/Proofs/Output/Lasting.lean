import Mathlib.Data.List.Infix
import SchemaBindings.Proofs.Output.Isolation

/-! What later targets leave of earlier ones. No target takes a directory away, and none touches a
file that ends in another way than its own. So what was delivered for one language stays when others
come after it. -/

namespace SchemaBindings.Output

open Binding (File Rendered Target ending)
open Output.Tree (Opens)

variable {t t' made last : Tree} {directory path : String} {files before : List File} {f : File}
  {r : Rendered} {order : Order} {result : Except Unsupported Rendered}
  {results : List (Order × Except Unsupported Rendered)} {first : Report} {reports : List Report}
  {place p : List String} {contents : ByteArray} {catalog : Catalog}

section Endings

theorem exists_toList_pathIn (directory : String) (f : File) :
    ∃ front, (pathIn directory f).toList = front ++ f.name.toList := by
  unfold pathIn Path.join
  split
  · exact ⟨[], rfl⟩
  · split
    · exact ⟨directory.toList, String.toList_append⟩
    · exact ⟨(directory ++ "/").toList, String.toList_append⟩

/-- Where a file of a target is written, the name ends as the files of its language do. -/
theorem exists_name_of_standsAt {target : Target} (linked : catalog.Linked)
    (renders : target.render catalog = .ok r) (member : f ∈ r.files)
    (stands : StandsAt directory f p) :
    ∃ name, p.getLast? = some name ∧ (ending target.language).toList <:+ name.toList := by
  obtain ⟨stems, names, -, -⟩ := Binding.exists_stems_of_render linked renders
  have named : f.name ∈ stems.map (· ++ ending target.language) :=
    names ▸ List.mem_map_of_mem member
  obtain ⟨stem, -, same⟩ := List.mem_map.1 named
  obtain ⟨front, spelled⟩ := exists_toList_pathIn directory f
  rw [← same, String.toList_append, ← List.append_assoc] at spelled
  have slashless : '/' ∉ (ending target.language).toList := by
    cases target.language <;> decide
  exact Path.getLast?_place? spelled slashless stands

theorem eq_of_endings {language other : Language} {name : List Char}
    (first : (ending language).toList <:+ name) (second : (ending other).toList <:+ name) :
    language = other := by
  have nested := List.suffix_or_suffix_of_suffix first second
  revert nested
  cases language <;> cases other <;> decide

/-- Files of two languages are never written to one place. -/
theorem language_eq_of_standsAt {target other : Target} {own : String} {s : Rendered} {g : File}
    (linked : catalog.Linked) (renders : target.render catalog = .ok r) (member : f ∈ r.files)
    (stands : StandsAt directory f p) (rendersToo : other.render catalog = .ok s)
    (listed : g ∈ s.files) (standsToo : StandsAt own g p) : target.language = other.language := by
  obtain ⟨name, named, ends⟩ := exists_name_of_standsAt linked renders member stands
  obtain ⟨_, again, endsToo⟩ := exists_name_of_standsAt linked rendersToo listed standsToo
  obtain rfl := Option.some.inj (named.symm.trans again)
  exact eq_of_endings ends endsToo

end Endings

section Growing

namespace Tree

theorem walk_of_grows (grows : ∀ p, t.isDirectory p = true → t'.isDirectory p = true)
    {steps : List Step} (walks : t.walk place steps = some p) : t'.walk place steps = some p := by
  fun_induction walk t place steps with
  | case1 => exact walks
  | case2 => cases walks
  | case3 place rest inside ih =>
    rw [walk, if_neg inside]
    exact ih walks
  | case4 place name rest there ih =>
    rw [walk, if_pos (grows _ there)]
    exact ih walks
  | case5 => cases walks

theorem place?_of_grows (grows : ∀ p, t.isDirectory p = true → t'.isDirectory p = true)
    (leads : t.place? path = some p) : t'.place? path = some p := by
  rw [place?_eq] at leads ⊢
  split at leads
  · rename_i usable
    obtain ⟨⟨way, name⟩, named, leads⟩ := Option.bind_eq_some_iff.1 leads
    obtain ⟨own, walks, rfl⟩ := Option.map_eq_some_iff.1 leads
    rw [if_pos usable, named, Option.bind_some]
    exact Option.map_eq_some_iff.2 ⟨own, walk_of_grows grows walks, rfl⟩
  · cases leads

end Tree

/-- However writing ends, all directories are still there. -/
theorem Ends.isDirectory {outcome : Except Failure Written} (ends : Ends directory r t outcome t')
    (there : t.isDirectory p = true) : t'.isDirectory p = true := by
  have opened := Tree.opens_makeDirectories t directory
  cases ends with
  | blocked _ rolledBack =>
    exact Tree.isDirectory_of_kept (rolledBack.kept p nofun) there
  | @stopped before after f made last _ makes files wrote fails rolledBack =>
    rw [makes] at opened
    by_cases written : ∃ f ∈ before, StandsAt directory f p
    · -- A file was written here, so this was no directory.
      obtain ⟨f, member, stands⟩ := written
      obtain ⟨own, leads, free⟩ := wrote.exists_place member
      obtain rfl := Option.some.inj (stands.symm.trans (Tree.place?_eq_some leads).1)
      rw [wrote.isDirectory_eq, Tree.isDirectory_of_kept (opened _) there] at free
      cases free
    · exact Tree.isDirectory_of_kept
        (rolledBack.kept p fun f member stands => written ⟨f, member, stands⟩) there
  | finished makes wrote delivered =>
    rw [makes] at opened
    rw [wrote.isDirectory_eq]
    exact Tree.isDirectory_of_kept (opened p) there

/-- However writing ends, what stands elsewhere stays. -/
theorem Ends.entry?_of_some {outcome : Except Failure Written} {entry : Entry}
    (ends : Ends directory r t outcome t') (other : ∀ f ∈ r.files, ¬ StandsAt directory f p)
    (there : t.entry? p = some entry) : t'.entry? p = some entry := by
  cases ends with
  | blocked _ rolledBack => exact Tree.entry?_of_kept (rolledBack.kept p nofun) there
  | stopped _ files _ _ rolledBack =>
    have inside (f : File) (member : f ∈ _) : f ∈ r.files := files ▸ List.mem_append_left _ member
    exact Tree.entry?_of_kept (rolledBack.kept p fun f member => other f (inside f member)) there
  | finished _ _ delivered => exact Tree.entry?_of_kept (delivered.kept p other) there

theorem Reported.isDirectory (reported : Reported order t result first t')
    (there : t.isDirectory p = true) : t'.isDirectory p = true := by
  cases reported with
  | unsupported => exact there
  | rendered ends => exact ends.isDirectory there

/-- A path that no file of the result is written to. -/
def Spares (result : Except Unsupported Rendered) (directory path : String) : Prop :=
  ∀ r, result = .ok r → ∀ f ∈ r.files, ∀ p, StandsAt directory f p → Path.place? path ≠ some p

theorem Reported.read? (reported : Reported order t result first t')
    (spares : Spares result order.directory path) (found : t.read? path = some contents) :
    t'.read? path = some contents := by
  obtain ⟨place, leads, there⟩ := Tree.read?_eq_some.1 found
  have known := (Tree.place?_eq_some leads).1
  refine Tree.read?_eq_some.2 ⟨place, Tree.place?_of_grows (fun p => reported.isDirectory) leads, ?_⟩
  cases reported with
  | unsupported => exact there
  | @rendered r _ _ ends =>
    exact ends.entry?_of_some (fun f member stands => spares r rfl f member place stands known) there

theorem ReportedAll.read? (all : ReportedAll t results reports t')
    (spares : ∀ entry ∈ results, Spares entry.2 entry.1.directory path)
    (found : t.read? path = some contents) : t'.read? path = some contents := by
  induction all with
  | nil => exact found
  | cons reported _ ih =>
    obtain ⟨here, later⟩ := List.forall_mem_cons.1 spares
    exact ih later (reported.read? here found)

end Growing

section Succeeding

/-- An order has a result on a tree whose files can all be written there. -/
def Feasible (order : Order) (result : Except Unsupported Rendered) (t : Tree) : Prop :=
  ∃ r made last, result = .ok r ∧ t.makeDirectories order.directory = (made, true) ∧
    Wrote order.directory made r.files last

theorem Wrote.unique (wrote : Wrote directory t files t') (again : Wrote directory t files last) :
    t' = last := by
  induction wrote with
  | nil =>
    cases again
    rfl
  | cons writes _ ih =>
    cases again with
    | cons writesToo later =>
      obtain rfl := Option.some.inj (writes.symm.trans writesToo)
      exact ih later

theorem Wrote.of_append {before after : List File} (wrote : Wrote directory t (before ++ after) t') :
    ∃ next, Wrote directory t before next ∧ Wrote directory next after t' := by
  induction before generalizing t with
  | nil => exact ⟨t, .nil, wrote⟩
  | cons f rest ih =>
    cases wrote with
    | cons writes later =>
      obtain ⟨next, first, second⟩ := ih later
      exact ⟨next, .cons writes first, second⟩

/-- Success is reported where all files can be written, and nowhere else. -/
theorem Reported.isOk_iff (reported : Reported order t result first t') :
    first.outcome.isOk = true ↔ Feasible order result t := by
  cases reported with
  | unsupported fault => exact iff_of_false nofun fun ⟨_, _, _, same, _⟩ => nomatch same
  | @rendered r outcome _ ends =>
    cases ends with
    | blocked fails =>
      refine iff_of_false nofun fun ⟨_, _, _, _, makes, _⟩ => ?_
      rw [makes] at fails
      cases fails
    | stopped makes files wrote fails =>
      refine iff_of_false nofun fun ⟨_, _, _, same, makesToo, whole⟩ => ?_
      cases same
      obtain ⟨rfl, -⟩ := Prod.mk.inj (makes.symm.trans makesToo)
      rw [files] at whole
      obtain ⟨next, first, second⟩ := whole.of_append
      obtain rfl := wrote.unique first
      cases second with
      | cons writes _ =>
        rw [fails] at writes
        cases writes
    | finished makes wrote => exact iff_of_true rfl ⟨r, _, _, rfl, makes, wrote⟩

theorem Reported.holds (reported : Reported order t result first t') :
    Holds result order t' first := by
  intro w done
  obtain ⟨r, _, renders, same, _, _, delivered⟩ := reported.delivered done
  exact ⟨r, renders, same, delivered.holds⟩

end Succeeding

section Turns

variable {schema : Schema} {text rootName : String} {orders : List Order}

/-- The tree that an order meets when these are dealt with before it. -/
def turn (schema : Schema) (rootName : String) (t : Tree) (before : List Order) : Tree :=
  ((reportAll Tree.disk (resultsOf schema rootName before)).run t).2

/-- At its turn among the orders, all files of an order can be rendered and written. -/
def Succeeds (schema : Schema) (rootName : String) (t : Tree) (orders : List Order)
    (order : Order) : Prop :=
  ∃ before after, orders = before ++ order :: after ∧
    Feasible order (order.target.render (Catalog.ofSchema schema rootName))
      (turn schema rootName t before)

theorem turn_concat (t : Tree) (before : List Order) (order : Order) :
    turn schema rootName t (before ++ [order]) =
      ((report Tree.disk order (order.target.render (Catalog.ofSchema schema rootName))).run
        (turn schema rootName t before)).2 := by
  induction before generalizing t with
  | nil => rfl
  | cons first rest ih => exact ih _

theorem succeeds_iff {before after : List Order} (split : orders = before ++ order :: after)
    (distinct : orders.Nodup) :
    Succeeds schema rootName t orders order ↔
      Feasible order (order.target.render (Catalog.ofSchema schema rootName))
        (turn schema rootName t before) := by
  constructor
  · rintro ⟨others, rest, same, feasible⟩
    rw [split, List.nodup_middle, List.nodup_cons, List.mem_append, not_or] at distinct
    obtain ⟨⟨early, late⟩, -⟩ := distinct
    obtain ⟨rfl, -, -⟩ :=
      (List.append_cons_inj_of_notMem early late).1 (split.symm.trans same)
    exact feasible
  · exact fun feasible => ⟨before, after, split, feasible⟩

/-- What is reported of an order tells how its turn went, and holds on a tree. -/
structure Accounts (schema : Schema) (rootName : String) (t t' : Tree) (orders : List Order)
    (order : Order) (first : Report) : Prop where
  own : first.order = order
  told : first.outcome.isOk = true ↔ Succeeds schema rootName t orders order
  holds : Holds (order.target.render (Catalog.ofSchema schema rootName)) order t' first

theorem spares_of_language_ne {other : Order} (linked : catalog.Linked)
    (renders : order.target.render catalog = .ok r) (member : f ∈ r.files)
    (apart : order.target.language ≠ other.target.language) :
    Spares (other.target.render catalog) other.directory (pathIn order.directory f) := by
  intro s rendersToo g listed p stands here
  exact apart (language_eq_of_standsAt linked renders member here rendersToo listed stands)

theorem Holds.of_reportedAll {next : Tree} {rest : List Order}
    (holds : Holds (order.target.render (Catalog.ofSchema schema rootName)) order next first)
    (all : ReportedAll next (resultsOf schema rootName rest) reports t')
    (apart : ∀ other ∈ rest, order.target.language ≠ other.target.language) :
    Holds (order.target.render (Catalog.ofSchema schema rootName)) order t' first := by
  intro w done
  obtain ⟨r, renders, same, there⟩ := holds w done
  refine ⟨r, renders, same, fun f member => all.read? ?_ (there f member)⟩
  exact List.forall_mem_map.2 fun other listed =>
    spares_of_language_ne (Catalog.linked_ofSchema schema rootName) renders member
      (apart other listed)

/-- By induction on the orders that are left. The tree they meet is that of the turns before. -/
theorem reportAll_accounts (distinct : (orders.map (·.target.language)).Nodup) (t : Tree)
    {before rest : List Order} (split : orders = before ++ rest) :
    List.Forall₂
      (Accounts schema rootName t ((reportAll Tree.disk (resultsOf schema rootName rest)).run
        (turn schema rootName t before)).2 orders)
      rest
      ((reportAll Tree.disk (resultsOf schema rootName rest)).run
        (turn schema rootName t before)).1 := by
  induction rest generalizing before with
  | nil => exact .nil
  | cons order rest ih =>
    obtain ⟨first, next, run, reported⟩ := reported_report order (turn schema rootName t before)
      (order.target.render (Catalog.ofSchema schema rootName))
      fun r renders => apart_of_render (Catalog.linked_ofSchema schema rootName) renders _
    have later := @ih (before ++ [order]) (by rw [split, List.append_cons])
    rw [turn_concat, run] at later
    have behind := reportedAll_resultsOf schema rootName rest next
    have differs : ∀ other ∈ rest, order.target.language ≠ other.target.language := by
      rw [split, List.map_append, List.map_cons] at distinct
      have fresh := (List.nodup_cons.1 distinct.of_append_right).1
      exact fun other member same => fresh (same ▸ List.mem_map_of_mem member)
    have own : first.order = order := by rw [← report_order order _ _, run]
    have told := reported.isOk_iff.trans (succeeds_iff split distinct.of_map).symm
    rw [resultsOf_cons, run_reportAll_cons, run]
    exact .cons ⟨own, told, reported.holds.of_reportedAll behind differs⟩ later

/-- What is reported of targets for different languages tells which of them could be written, each at
its turn. All that was written for one is still there at the end, whatever became of the others. -/
theorem generate_accounts (valid : Schema.ofText text = .ok schema)
    (distinct : (orders.map (·.target.language)).Nodup) (t : Tree) :
    ∃ reports t', (generate Tree.disk text rootName orders).run t = (.ok reports, t') ∧
      List.Forall₂ (Accounts schema rootName t t' orders) orders reports :=
  ⟨_, _, run_generate_ok valid t, reportAll_accounts distinct t (List.nil_append orders).symm⟩

theorem feasible_alike {s : Tree} (homely : Homely order result)
    (alike : Tree.Alike (Path.home order.directory) t s) :
    Feasible order result s ↔ Feasible order result t := by
  obtain ⟨first, _, _, run, runToo, -⟩ := report_alike homely alike
  obtain ⟨_, _, again, reported⟩ := reported_report order t result homely.apart
  obtain ⟨_, _, againToo, reportedToo⟩ := reported_report order s result homely.apart
  obtain ⟨rfl, -⟩ := Prod.mk.inj (again.symm.trans run)
  obtain ⟨rfl, -⟩ := Prod.mk.inj (againToo.symm.trans runToo)
  exact reportedToo.isOk_iff.symm.trans reported.isOk_iff

/-- In directories beside each other, an order succeeds where it would succeed alone. -/
theorem succeeds_iff_of_separate (separate : Separate orders) (distinct : orders.Nodup)
    (plain : PlainFiles (Catalog.ofSchema schema rootName) orders) (t : Tree)
    (member : order ∈ orders) :
    Succeeds schema rootName t orders order ↔
      Feasible order (order.target.render (Catalog.ofSchema schema rootName)) t := by
  obtain ⟨before, after, rfl⟩ := List.mem_iff_append.1 member
  have homely := homely_resultsOf separate plain
  rw [succeeds_iff rfl distinct, turn]
  have here : (order, order.target.render (Catalog.ofSchema schema rootName)) ∈
      resultsOf schema rootName (before ++ order :: after) := List.mem_map_of_mem member
  have early : resultsOf schema rootName before ⊆
      resultsOf schema rootName (before ++ order :: after) :=
    List.map_subset _ (List.subset_append_left ..)
  have confined := confined_reportAll (fun entry listed => homely entry (early listed)) t
  refine feasible_alike (homely _ here) (confined.alike fun place listed => ?_)
  rw [resultsOf, List.map_map] at listed
  obtain ⟨other, first, rfl⟩ := List.mem_map.1 listed
  exact ((List.pairwise_append.1 separate.beside).2.2 other first order List.mem_cons_self).symm

end Turns

end SchemaBindings.Output
