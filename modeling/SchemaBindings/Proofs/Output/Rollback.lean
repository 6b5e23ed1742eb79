import SchemaBindings.Output.Generate
import SchemaBindings.Proofs.Binding.FileNames
import SchemaBindings.Proofs.Catalog.Links

/-! What a target leaves behind. When all its files can be written, each is where it belongs. When one
cannot, those that were written before are taken away again, and of all that was done only
directories on the way to the output stay. -/

namespace SchemaBindings.Output

open Binding (File Rendered Target)
open Output.Tree (Opens)

variable {t t' made : Tree} {directory : String} {files written : List File} {r : Rendered}
  {text rootName : String} {orders : List Order} {schema : Schema}

/-- The path that a file is written to. -/
def pathIn (directory : String) (f : File) : String := Path.join directory f.name

/-- The file is written to this place. -/
def StandsAt (directory : String) (f : File) (place : List String) : Prop :=
  Path.place? (pathIn directory f) = some place

/-- Writing one file after the other leads from the first tree to the second. -/
inductive Wrote (directory : String) : Tree → List File → Tree → Prop
  | nil {t : Tree} : Wrote directory t [] t
  | cons {t next last : Tree} {f : File} {rest : List File}
      (writes : t.write? (pathIn directory f) f.contents.toUTF8 = some next)
      (later : Wrote directory next rest last) : Wrote directory t (f :: rest) last

/-- The files are gone and all else is as before, but for directories on the way to the output. -/
structure RolledBack (directory : String) (files written : List File) (before after : Tree) :
    Prop where
  gone : ∀ f ∈ written, ∃ place, StandsAt directory f place ∧ after.entry? place = none
  kept : ∀ place, (∀ f ∈ written, ¬ StandsAt directory f place) →
    after.entry? place = before.entry? place ∨
      before.entry? place = none ∧ after.entry? place = some .directory ∧
        place ∈ Path.way directory
  /-- Where none of the output was there before, none of it is left. -/
  clean : (∀ f ∈ files, ∀ place, StandsAt directory f place → before.entry? place = none) →
    Opens (Path.way directory) before after

/-- Every file holds its contents and all else is as before, but for directories on the way to the
output. -/
structure Delivered (directory : String) (files : List File) (before after : Tree) : Prop where
  holds : ∀ f ∈ files, after.read? (pathIn directory f) = some f.contents.toUTF8
  kept : ∀ place, (∀ f ∈ files, ¬ StandsAt directory f place) →
    after.entry? place = before.entry? place ∨
      before.entry? place = none ∧ after.entry? place = some .directory ∧
        place ∈ Path.way directory

/-- How writing what was rendered ends, and what it leaves behind. -/
inductive Ends (directory : String) (r : Rendered) (t : Tree) : Except Failure Written → Tree → Prop
  /-- A directory cannot be made. -/
  | blocked {t' : Tree} (fails : (t.makeDirectories directory).2 = false)
      (rolledBack : RolledBack directory r.files [] t t') : Ends directory r t (.error .io) t'
  /-- A file cannot be written. -/
  | stopped {before after : List File} {f : File} {made last t' : Tree}
      (makes : t.makeDirectories directory = (made, true)) (files : r.files = before ++ f :: after)
      (wrote : Wrote directory made before last)
      (fails : last.write? (pathIn directory f) f.contents.toUTF8 = none)
      (rolledBack : RolledBack directory r.files before t t') : Ends directory r t (.error .io) t'
  | finished {made t' : Tree} (makes : t.makeDirectories directory = (made, true))
      (wrote : Wrote directory made r.files t') (delivered : Delivered directory r.files t t') :
      Ends directory r t (.ok ⟨r.files.map (pathIn directory), r.roster⟩) t'

/-- What is reported of one order. Without anything rendered, nothing is touched. -/
inductive Reported (order : Order) (t : Tree) : Except Unsupported Rendered → Report → Tree → Prop
  | unsupported (fault : Unsupported) :
      Reported order t (.error fault) ⟨order, .error (.unsupported fault)⟩ t
  | rendered {r : Rendered} {outcome : Except Failure Written} {t' : Tree}
      (ends : Ends order.directory r t outcome t') : Reported order t (.ok r) ⟨order, outcome⟩ t'

/-- The orders are dealt with in turn, each on the tree that the one before it leaves. -/
inductive ReportedAll :
    Tree → List (Order × Except Unsupported Rendered) → List Report → Tree → Prop
  | nil {t : Tree} : ReportedAll t [] [] t
  | cons {t next last : Tree} {order : Order} {result : Except Unsupported Rendered}
      {rest : List (Order × Except Unsupported Rendered)} {first : Report} {reports : List Report}
      (reported : Reported order t result first next) (later : ReportedAll next rest reports last) :
      ReportedAll t ((order, result) :: rest) (first :: reports) last

section Running

@[simp] theorem run_removeAll (paths : List String) (t : Tree) :
    (removeAll Tree.disk paths).run t = ((), paths.foldl Tree.remove t) := by
  induction paths generalizing t with
  | nil => rfl
  | cons path rest ih => exact ih (t.remove path)

theorem run_write (path text : String) (t : Tree) :
    (Tree.disk.write path text).run t =
      match t.write? path text.toUTF8 with
      | some next => (true, next)
      | none => (false, t) :=
  rfl

theorem run_writeFiles_cons (paths : List String) (f : File) (rest : List File) (t : Tree) :
    (writeFiles Tree.disk directory paths (f :: rest)).run t =
      match t.write? (pathIn directory f) f.contents.toUTF8 with
      | some next =>
        (writeFiles Tree.disk directory (paths ++ [pathIn directory f]) rest).run next
      | none => (none, paths.foldl Tree.remove t) := by
  have wrote := run_write (pathIn directory f) f.contents t
  cases writes : t.write? (pathIn directory f) f.contents.toUTF8 with
  | some next =>
    rw [writes] at wrote
    rw [writeFiles, StateT.run_bind, ← pathIn, wrote]
    rfl
  | none =>
    rw [writes] at wrote
    rw [writeFiles, StateT.run_bind, ← pathIn, wrote]
    exact congrArg (fun step : Unit × Tree => (none, step.2)) (run_removeAll paths t)

/-- All files are written, or the first that cannot be makes those before it go. -/
theorem run_writeFiles (paths : List String) (files : List File) (t : Tree) :
    (∃ t', Wrote directory t files t' ∧ (writeFiles Tree.disk directory paths files).run t =
      (some (paths ++ files.map (pathIn directory)), t')) ∨
    ∃ before f after last, files = before ++ f :: after ∧ Wrote directory t before last ∧
      last.write? (pathIn directory f) f.contents.toUTF8 = none ∧
      (writeFiles Tree.disk directory paths files).run t =
        (none, (paths ++ before.map (pathIn directory)).foldl Tree.remove last) := by
  induction files generalizing paths t with
  | nil => exact .inl ⟨t, .nil, by rw [List.map_nil, List.append_nil]; rfl⟩
  | cons f rest ih =>
    rw [run_writeFiles_cons]
    cases writes : t.write? (pathIn directory f) f.contents.toUTF8 with
    | none => exact .inr ⟨[], f, rest, t, rfl, .nil, writes, by rw [List.map_nil, List.append_nil]⟩
    | some next =>
      rcases ih (paths ++ [pathIn directory f]) next with
        ⟨t', wrote, run⟩ | ⟨before, g, after, last, rfl, wrote, fails, run⟩
      · refine .inl ⟨t', .cons writes wrote, ?_⟩
        simp only [run, List.append_assoc, List.singleton_append, List.map_cons]
      · refine .inr ⟨f :: before, g, after, last, rfl, .cons writes wrote, fails, ?_⟩
        simp only [run, List.append_assoc, List.singleton_append, List.map_cons]

/-- The directories are made first, then all files are written. -/
theorem run_writeTarget {isOpen : Bool} (makes : t.makeDirectories directory = (made, isOpen)) :
    (writeTarget Tree.disk directory r).run t =
      if isOpen then
        match (writeFiles Tree.disk directory [] r.files).run made with
        | (some paths, last) => (.ok ⟨paths, r.roster⟩, last)
        | (none, last) => (.error .io, last)
      else (.error .io, made) := by
  have step : (Tree.disk.makeDirectories directory).run t = (isOpen, made) :=
    congrArg Prod.swap makes
  rw [writeTarget, StateT.run_bind, step]
  cases isOpen with
  | false => rfl
  | true =>
    refine (StateT.run_bind (writeFiles Tree.disk directory [] r.files) _ made).trans ?_
    rcases (writeFiles Tree.disk directory [] r.files).run made with ⟨_ | paths, last⟩
    · rfl
    · rfl

/-- What the orders come to before anything is written. -/
def resultsOf (schema : Schema) (rootName : String) (orders : List Order) :
    List (Order × Except Unsupported Rendered) :=
  orders.map fun order => (order, order.target.render (Catalog.ofSchema schema rootName))

theorem resultsOf_cons (order : Order) (rest : List Order) :
    resultsOf schema rootName (order :: rest) =
      (order, order.target.render (Catalog.ofSchema schema rootName)) ::
        resultsOf schema rootName rest :=
  rfl

theorem run_generate_error {fault : Fault} (invalid : Schema.ofText text = .error fault) (t : Tree) :
    (generate Tree.disk text rootName orders).run t = (.error fault, t) := by
  rw [generate, Binding.render, invalid]
  rfl

theorem run_generate_ok (valid : Schema.ofText text = .ok schema) (t : Tree) :
    (generate Tree.disk text rootName orders).run t =
      (.ok ((reportAll Tree.disk (resultsOf schema rootName orders)).run t).1,
        ((reportAll Tree.disk (resultsOf schema rootName orders)).run t).2) := by
  have paired : orders.zip ((orders.map (·.target)).map
      (·.render (Catalog.ofSchema schema rootName))) = resultsOf schema rootName orders := by
    rw [List.map_map, ← List.map_prod_left_eq_zip]
    rfl
  rw [generate, Binding.render, valid, ← paired]
  rfl

theorem report_order (order : Order) (result : Except Unsupported Rendered) (t : Tree) :
    ((report Tree.disk order result).run t).1.order = order := by
  cases result <;> rfl

theorem run_reportAll_cons (order : Order) (result : Except Unsupported Rendered)
    (rest : List (Order × Except Unsupported Rendered)) (t : Tree) :
    (reportAll Tree.disk ((order, result) :: rest)).run t =
      (((report Tree.disk order result).run t).1 ::
          ((reportAll Tree.disk rest).run ((report Tree.disk order result).run t).2).1,
        ((reportAll Tree.disk rest).run ((report Tree.disk order result).run t).2).2) :=
  rfl

end Running

section Written

theorem Wrote.isDirectory_eq (wrote : Wrote directory t files t') (p : List String) :
    t'.isDirectory p = t.isDirectory p := by
  induction wrote with
  | nil => rfl
  | cons writes _ ih => exact ih.trans (Tree.isDirectory_of_write? writes p)

theorem Wrote.entry?_of_ne (wrote : Wrote directory t files t') {p : List String}
    (other : ∀ f ∈ files, ¬ StandsAt directory f p) : t'.entry? p = t.entry? p := by
  induction wrote with
  | nil => rfl
  | cons writes _ ih =>
    obtain ⟨first, later⟩ := List.forall_mem_cons.1 other
    rw [ih later, Tree.entry?_of_write? writes]
    exact if_neg first

/-- Each file was written to a place of its own, where no directory is. -/
theorem Wrote.exists_place (wrote : Wrote directory t files t') {f : File} (member : f ∈ files) :
    ∃ place, t'.place? (pathIn directory f) = some place ∧ t'.isDirectory place = false := by
  induction wrote with
  | nil => cases member
  | cons writes later ih =>
    rcases List.mem_cons.1 member with rfl | member
    · obtain ⟨place, leads, free, -⟩ := Tree.write?_eq_some writes
      refine ⟨place, ?_, ?_⟩
      · rw [Tree.place?_congr (Wrote.cons writes later).isDirectory_eq]
        exact leads
      · rw [(Wrote.cons writes later).isDirectory_eq]
        exact free
    · exact ih member

/-- What was written is gone once it is taken back. -/
theorem Wrote.entry?_removed_of_standsAt (wrote : Wrote directory t files t') {f : File}
    (member : f ∈ files) {place : List String} (stands : StandsAt directory f place) :
    Tree.entry? ((files.map (pathIn directory)).foldl Tree.remove t') place = none := by
  obtain ⟨own, leads, free⟩ := wrote.exists_place member
  obtain rfl := Option.some.inj (stands.symm.trans (Tree.place?_eq_some leads).1)
  exact Tree.entry?_removeAll_of_mem (List.mem_map_of_mem member) leads free

/-- Writing files and taking them back changes nothing elsewhere. -/
theorem Wrote.entry?_removed_of_ne (wrote : Wrote directory t files t') {place : List String}
    (other : ∀ f ∈ files, ¬ StandsAt directory f place) :
    Tree.entry? ((files.map (pathIn directory)).foldl Tree.remove t') place = t.entry? place := by
  rw [Tree.entry?_removeAll_of_ne fun path member => ?_, wrote.entry?_of_ne other]
  obtain ⟨f, listed, rfl⟩ := List.mem_map.1 member
  exact other f listed

/-- No two files are written to one place. -/
def Apart (directory : String) (files : List File) : Prop :=
  files.Pairwise fun f g => ∀ place, StandsAt directory f place → ¬ StandsAt directory g place

theorem Wrote.entry?_of_standsAt (wrote : Wrote directory t files t')
    (apart : Apart directory files) {f : File} (member : f ∈ files) {place : List String}
    (stands : StandsAt directory f place) : t'.entry? place = some (.file f.contents.toUTF8) := by
  induction wrote with
  | nil => cases member
  | cons writes later ih =>
    obtain ⟨first, rest⟩ := List.pairwise_cons.1 apart
    rcases List.mem_cons.1 member with rfl | member
    · rw [later.entry?_of_ne fun g inside => first g inside place stands,
        Tree.entry?_of_write? writes]
      exact if_pos stands
    · exact ih rest member

theorem apart_of_render {target : Target} {catalog : Catalog} (linked : catalog.Linked)
    (renders : target.render catalog = .ok r) (directory : String) : Apart directory r.files := by
  rcases Binding.files_apart linked renders with ⟨f, single⟩ | ⟨distinct, plain⟩
  · rw [Apart, single]
    exact List.pairwise_singleton ..
  · have each := List.pairwise_map.1 distinct
    refine each.imp_of_mem fun {f g} first second differs place stands other => differs ?_
    unfold StandsAt pathIn at stands other
    rw [(plain f first).place?_join] at stands
    rw [(plain g second).place?_join] at other
    obtain ⟨_, known, rfl⟩ := Option.map_eq_some_iff.1 stands
    obtain ⟨_, again, same⟩ := Option.map_eq_some_iff.1 other
    exact (List.singleton_inj.1 (List.append_inj_right' same rfl)).symm

end Written

section Ending

theorem rolledBack_of_opens (opened : Opens (Path.way directory) t t') (files : List File) :
    RolledBack directory files [] t t' where
  gone := nofun
  kept place _ := opened place
  clean _ := opened

theorem rolledBack_of_wrote (opened : Opens (Path.way directory) t made) {last : Tree}
    (wrote : Wrote directory made written last) (inside : written ⊆ files) :
    RolledBack directory files written t
      ((written.map (pathIn directory)).foldl Tree.remove last) := by
  constructor
  case gone =>
    intro f member
    obtain ⟨place, leads, -⟩ := wrote.exists_place member
    have stands := (Tree.place?_eq_some leads).1
    exact ⟨place, stands, wrote.entry?_removed_of_standsAt member stands⟩
  case kept =>
    intro place other
    rw [wrote.entry?_removed_of_ne other]
    exact opened place
  case clean =>
    intro fresh place
    by_cases output : ∃ f ∈ written, StandsAt directory f place
    · obtain ⟨f, member, stands⟩ := output
      rw [wrote.entry?_removed_of_standsAt member stands, fresh f (inside member) place stands]
      exact .inl rfl
    · rw [wrote.entry?_removed_of_ne fun f member stands => output ⟨f, member, stands⟩]
      exact opened place

theorem delivered_of_wrote (opened : Opens (Path.way directory) t made)
    (wrote : Wrote directory made files t') (apart : Apart directory files) :
    Delivered directory files t t' where
  holds f member := by
    obtain ⟨place, leads, -⟩ := wrote.exists_place member
    exact Tree.read?_eq_some.2 ⟨place, leads,
      wrote.entry?_of_standsAt apart member (Tree.place?_eq_some leads).1⟩
  kept place other := by
    rw [wrote.entry?_of_ne other]
    exact opened place

/-- Writing what was rendered ends in one of the three ways. -/
theorem ends_writeTarget (apart : Apart directory r.files) (t : Tree) :
    ∃ outcome t', (writeTarget Tree.disk directory r).run t = (outcome, t') ∧
      Ends directory r t outcome t' := by
  have opened := Tree.opens_makeDirectories t directory
  cases makes : t.makeDirectories directory with
  | mk made isOpen =>
    rw [makes] at opened
    cases isOpen with
    | false =>
      exact ⟨.error .io, made, run_writeTarget makes,
        .blocked (by rw [makes]) (rolledBack_of_opens opened _)⟩
    | true =>
      rcases @run_writeFiles directory [] r.files made with
        ⟨t', wrote, run⟩ | ⟨before, f, after, last, files, wrote, fails, run⟩
      · refine ⟨_, t', ?_, .finished makes wrote (delivered_of_wrote opened wrote apart)⟩
        simp only [run_writeTarget makes, if_true, run, List.nil_append]
      · have inside : before ⊆ r.files := files ▸ List.subset_append_left ..
        refine ⟨_, _, ?_, .stopped makes files wrote fails (rolledBack_of_wrote opened wrote inside)⟩
        simp only [run_writeTarget makes, if_true, run, List.nil_append]

theorem reported_report (order : Order) (t : Tree) (result : Except Unsupported Rendered)
    (apart : ∀ r, result = .ok r → Apart order.directory r.files) :
    ∃ first t', (report Tree.disk order result).run t = (first, t') ∧
      Reported order t result first t' := by
  cases result with
  | error fault => exact ⟨_, t, rfl, .unsupported fault⟩
  | ok r =>
    obtain ⟨outcome, t', run, ends⟩ := ends_writeTarget (apart r rfl) t
    refine ⟨⟨order, outcome⟩, t', ?_, .rendered ends⟩
    exact congrArg (fun step : Except Failure Written × Tree => (Report.mk order step.1, step.2)) run

/-- Where success is reported, everything was delivered. -/
theorem Reported.delivered {order : Order} {result : Except Unsupported Rendered} {first : Report}
    {w : Written} (reported : Reported order t result first t') (done : first.outcome = .ok w) :
    ∃ r made, result = .ok r ∧ w = ⟨r.files.map (pathIn order.directory), r.roster⟩ ∧
      t.makeDirectories order.directory = (made, true) ∧ Wrote order.directory made r.files t' ∧
      Delivered order.directory r.files t t' := by
  cases reported with
  | unsupported => cases done
  | @rendered r _ _ ends =>
    cases ends with
    | blocked => cases done
    | stopped => cases done
    | finished makes wrote delivered =>
      exact ⟨r, _, rfl, (Except.ok.inj done).symm, makes, wrote, delivered⟩

/-- Everything that is reported as written is there. -/
def Holds (result : Except Unsupported Rendered) (order : Order) (t : Tree) (first : Report) :
    Prop :=
  ∀ w, first.outcome = .ok w →
    ∃ r, result = .ok r ∧ w = ⟨r.files.map (pathIn order.directory), r.roster⟩ ∧
      ∀ f ∈ r.files, t.read? (pathIn order.directory f) = some f.contents.toUTF8

theorem reportedAll_reportAll (results : List (Order × Except Unsupported Rendered)) (t : Tree)
    (apart : ∀ entry ∈ results, ∀ r, entry.2 = .ok r → Apart entry.1.directory r.files) :
    ∃ reports t', (reportAll Tree.disk results).run t = (reports, t') ∧
      ReportedAll t results reports t' := by
  induction results generalizing t with
  | nil => exact ⟨[], t, rfl, .nil⟩
  | cons entry rest ih =>
    obtain ⟨here, later⟩ := List.forall_mem_cons.1 apart
    obtain ⟨first, next, run, reported⟩ := reported_report entry.1 t entry.2 here
    obtain ⟨reports, last, runs, all⟩ := ih next later
    refine ⟨first :: reports, last, ?_, .cons reported all⟩
    rw [reportAll, StateT.run_bind, run]
    exact congrArg (fun step : List Report × Tree => (first :: step.1, step.2)) runs

theorem reportedAll_resultsOf (schema : Schema) (rootName : String) (orders : List Order)
    (t : Tree) :
    ReportedAll t (resultsOf schema rootName orders)
      ((reportAll Tree.disk (resultsOf schema rootName orders)).run t).1
      ((reportAll Tree.disk (resultsOf schema rootName orders)).run t).2 := by
  have apart : ∀ entry ∈ resultsOf schema rootName orders, ∀ r, entry.2 = .ok r →
      Apart entry.1.directory r.files := by
    intro entry member r renders
    obtain ⟨order, -, rfl⟩ := List.mem_map.1 member
    exact apart_of_render (Catalog.linked_ofSchema schema rootName) renders _
  obtain ⟨reports, t', run, all⟩ := reportedAll_reportAll _ t apart
  rw [run]
  exact all

def addressText : String :=
  "\x7b\"definitions\":\x7b\"address\":\x7b\"properties\":\x7b\x7d\x7d\x7d," ++
    "\"properties\":\x7b\"home\":\x7b\"ref\":\"address\"\x7d\x7d\x7d"

def addressOrder : Order := ⟨⟨.java, "com.example"⟩, "java"⟩

/-- A directory stands where the second file belongs. -/
def blockedTree : Tree := ⟨[(["java", "Address.java"], .directory), (["java"], .directory)]⟩

end Ending

end SchemaBindings.Output
