import JavaMetrics.Proofs.Analysis.Pool
import JavaMetrics.Proofs.Analysis.Stages
import Mathlib.Algebra.Order.BigOperators.Group.List
import Mathlib.Algebra.Order.Group.Nat
import Mathlib.Algebra.Order.Ring.Int

/-!
# The counters of a run over a directory

A file is counted in two places. When its source has been analysed, its lines
and its problems are added; when the file is done, it is added to the files
analysed or to the files left out. Other tasks move in between, so the counters
of a run under way are not those of any number of whole files. What they are at
every moment is said by `Pool.Tally`, and what they have come to when all files
are done by `Pool.FinalTally`.

Both are read off the books of the pool. A task has made a first part of its
updates, and the updates of a file are two when its analysis succeeds and one
when it fails, so there are five cases for a task and the sums over all tasks
follow.

A run over a directory looks for files first. `DirectoryRun` puts that stage and
the end of the run around the pool.
-/

namespace JavaMetrics.Analysis

open Files (Tree Path)
open Log (Event)
open Metrics (Record)
open Report (Counters)

variable {setup : Setup} {tree : Tree}

/-! ## The updates of one task -/

def Update.isSource : Update → Bool
  | source _ _ => true
  | _ => false

namespace Task

/-- Is the source of the file analysed? Adding its lines and problems is the last
thing that the analysis of a source does. -/
def isCompleted (task : Task) : Bool :=
  task.counted.any Update.isSource

/-- What the task has added to a counter. -/
def total (counter : Counter) (task : Task) : Nat :=
  (task.counted.map (Update.amount counter)).sum

theorem performed_prefix (task : Task) :
    task.performed <+: task.report.actions ++
      [.deliver task.report.path task.report.records] := by
  obtain ⟨report, phase⟩ := task
  cases phase with
  | waiting => exact List.nil_prefix
  | started => exact List.nil_prefix
  | working done => exact (List.take_prefix _ _).trans (List.prefix_append _ _)
  | finished => exact List.prefix_append _ _
  | delivered => exact List.prefix_rfl

theorem counted_prefix (task : Task) : task.counted <+: task.report.updates := by
  obtain ⟨rest, hrest⟩ := task.performed_prefix
  have h := congrArg (List.flatMap Effect.updates) hrest
  rw [List.flatMap_append, List.flatMap_append, FileReport.updates_actions] at h
  simp only [List.flatMap_singleton, Effect.updates, List.append_nil] at h
  exact ⟨_, h⟩

variable {task : Task} {path : Path}

theorem counted_of_ok {findings : Findings}
    (hreport : task.report = reportOn setup tree path)
    (h : (analyzeFile setup tree path).2 = .ok findings) :
    task.counted = [] ∨ task.counted = [findings.update] ∨
      task.counted = [findings.update, .analyzed] := by
  -- the file has two updates, and those made so far are a beginning of these
  have hprefix := task.counted_prefix
  rw [hreport, (reportOn_of_ok h).2.1, List.prefix_cons_iff] at hprefix
  rcases hprefix with hnil | ⟨rest, hcons, hrest⟩
  · exact Or.inl hnil
  · rw [hcons]
    simpa [List.prefix_cons_iff] using hrest

theorem counted_of_error {failure : Failure}
    (hreport : task.report = reportOn setup tree path)
    (h : (analyzeFile setup tree path).2 = .error failure) :
    task.counted = [] ∨ task.counted = [.failed] := by
  have hprefix := task.counted_prefix
  rw [hreport, (reportOn_of_error h).2.1] at hprefix
  simpa [List.prefix_cons_iff] using hprefix

end Task

/-! ## What a file adds -/

/-- The lines of code of the text of a file. -/
def locOf (setup : Setup) (tree : Tree) (path : Path) : Nat :=
  match readSource setup tree path with
  | .ok text => Metrics.Loc.countText text
  | .error _ => 0

/-- Has the text of a file problems? -/
def hasProblems (setup : Setup) (tree : Tree) (path : Path) : Bool :=
  match readSource setup tree path with
  | .ok text =>
    match parseUnit setup.parser text path.text with
    | .ok unit => !unit.problems.isEmpty
    | .error _ => false
  | .error _ => false

theorem update_of_ok {path : Path} {findings : Findings}
    (h : (analyzeFile setup tree path).2 = .ok findings) :
    findings.update = .source (locOf setup tree path) (hasProblems setup tree path) := by
  obtain ⟨text, unit, hread, hparse, rfl⟩ := analyzeFile_ok_iff.1 h
  have htext := parseUnit_text hparse
  simp only [locOf, hasProblems, hread, hparse]
  rw [← htext]
  rfl

namespace Task

variable {task : Task} {path : Path}

theorem total_done_le_one (hreport : task.report = reportOn setup tree path) :
    task.total .analyzed + task.total .failed ≤ 1 := by
  cases h : (analyzeFile setup tree path).2 with
  | ok findings =>
      rcases counted_of_ok hreport h with hc | hc | hc <;>
        simp [total, hc, Findings.update, Update.amount]
  | error failure =>
      rcases counted_of_error hreport h with hc | hc <;> simp [total, hc, Update.amount]

/-- What only the analysis of a source adds to has been added to once the source
is completed. -/
theorem total_of_source {counter : Counter}
    (hanalyzed : Update.amount counter .analyzed = 0)
    (hfailed : Update.amount counter .failed = 0)
    (hreport : task.report = reportOn setup tree path) :
    task.total counter =
      if task.isCompleted then
        Update.amount counter (.source (locOf setup tree path) (hasProblems setup tree path))
      else 0 := by
  cases h : (analyzeFile setup tree path).2 with
  | ok findings =>
      have hupdate := update_of_ok h
      rcases counted_of_ok hreport h with hc | hc | hc <;>
        simp [total, isCompleted, hc, hupdate, hanalyzed, Update.isSource]
  | error failure =>
      rcases counted_of_error hreport h with hc | hc <;>
        simp [total, isCompleted, hc, hfailed, Update.isSource]

theorem isOk_of_isCompleted (hreport : task.report = reportOn setup tree path)
    (h : task.isCompleted = true) : (analyzeFile setup tree path).2.isOk = true := by
  cases hresult : (analyzeFile setup tree path).2 with
  | ok findings => rfl
  | error failure =>
      rcases counted_of_error hreport hresult with hc | hc <;>
        simp [isCompleted, hc, Update.isSource] at h

theorem counted_of_isDelivered (h : task.isDelivered = true) :
    task.counted = task.report.updates := by
  have hphase : task.phase = .delivered := of_decide_eq_true h
  simp only [counted, performed, hphase, List.flatMap_append, FileReport.updates_actions]
  exact List.append_nil _

end Task

/-! ## Sums over the tasks -/

namespace Pool

variable {pool : Pool}

/-- The paths of the files whose sources are analysed. -/
def completed (pool : Pool) : List Path :=
  (pool.tasks.filter Task.isCompleted).map (·.report.path)

theorem value_counters {before : Counters} {reports : List FileReport}
    (hpool : pool.Accounts before reports) (counter : Counter) :
    counter.value pool.counters =
      counter.value before + ((pool.tasks.map (Task.total counter)).sum : Nat) := by
  rw [hpool.counters_eq, applyAll_value, List.map_flatMap, List.flatMap_def,
    List.sum_flatten, List.map_map]
  rfl

theorem sum_map_if {α : Type} (p : α → Bool) (f : α → Nat) (xs : List α) :
    (xs.map fun x => if p x then f x else 0).sum = ((xs.filter p).map f).sum := by
  induction xs with
  | nil => rfl
  | cons x rest ih =>
      rw [List.map_cons, List.sum_cons, ih, List.filter_cons]
      split
      · rw [List.map_cons, List.sum_cons]
      · exact Nat.zero_add _

theorem report_eq_reportOn {before : Counters} {paths : List Path}
    (hpool : pool.Accounts before (paths.map (reportOn setup tree))) {task : Task}
    (hmem : task ∈ pool.tasks) :
    task.report = reportOn setup tree task.report.path := by
  have hin : task.report ∈ paths.map (reportOn setup tree) := by
    rw [← hpool.reports_eq]
    exact List.mem_map_of_mem hmem
  obtain ⟨path, -, hpath⟩ := List.mem_map.1 hin
  rw [← hpath, reportOn_path]

theorem paths_eq {before : Counters} {paths : List Path}
    (hpool : pool.Accounts before (paths.map (reportOn setup tree))) :
    pool.tasks.map (·.report.path) = paths := by
  have h := congrArg (List.map FileReport.path) hpool.reports_eq
  simpa [Function.comp_def, reportOn_path] using h

/-- The state of the counters at any moment. -/
structure Tally (setup : Setup) (tree : Tree) (pool : Pool) : Prop where
  done_le_found :
    pool.counters.filesAnalyzed + pool.counters.filesFailed ≤ pool.counters.filesFound
  /-- The files that are completed could be read and parsed. -/
  completed_read : ∀ path ∈ pool.completed, ∃ text unit,
    readSource setup tree path = .ok text ∧
      parseUnit setup.parser text path.text = .ok unit
  sourceLoc_eq :
    pool.counters.sourceLoc = ((pool.completed.map (locOf setup tree)).sum : Nat)
  filesWithProblems_eq :
    pool.counters.filesWithProblems = pool.completed.countP (hasProblems setup tree)

theorem done_le_found {paths : List Path}
    (hpool : pool.Accounts { filesFound := paths.length } (paths.map (reportOn setup tree))) :
    pool.counters.filesAnalyzed + pool.counters.filesFailed ≤ pool.counters.filesFound := by
  have hanalyzed := value_counters hpool .analyzed
  have hfailed := value_counters hpool .failed
  have hfound : pool.counters.filesFound = paths.length := by
    rw [hpool.counters_eq, applyAll_filesFound]
  have hlength : pool.tasks.length = paths.length := by
    rw [← paths_eq hpool, List.length_map]
  have hsum : (pool.tasks.map (Task.total .analyzed)).sum +
      (pool.tasks.map (Task.total .failed)).sum ≤ pool.tasks.length := by
    rw [← List.sum_map_add]
    have hle := List.sum_le_card_nsmul
      (pool.tasks.map fun task => task.total .analyzed + task.total .failed) 1
    refine (hle fun n hn => ?_).trans (by simp)
    obtain ⟨task, hmem, rfl⟩ := List.mem_map.1 hn
    exact Task.total_done_le_one (report_eq_reportOn hpool hmem)
  simp only [Counter.value] at hanalyzed hfailed
  omega

/-- What the tasks have added to a counter that only the analysis of sources adds
to is a sum over the sources that are analysed. -/
theorem sum_total_of_source {before : Counters} {paths : List Path} {counter : Counter}
    (hanalyzed : Update.amount counter .analyzed = 0)
    (hfailed : Update.amount counter .failed = 0)
    (hpool : pool.Accounts before (paths.map (reportOn setup tree))) :
    (pool.tasks.map (Task.total counter)).sum =
      (pool.completed.map fun path => Update.amount counter
        (.source (locOf setup tree path) (hasProblems setup tree path))).sum := by
  rw [completed, List.map_map, ← sum_map_if]
  refine congrArg List.sum (List.map_congr_left fun task hmem => ?_)
  exact Task.total_of_source hanalyzed hfailed (report_eq_reportOn hpool hmem)

theorem tally_of_accounts {paths : List Path}
    (hpool : pool.Accounts { filesFound := paths.length } (paths.map (reportOn setup tree))) :
    pool.Tally setup tree where
  done_le_found := done_le_found hpool
  completed_read path hmem := by
    obtain ⟨task, hfilter, rfl⟩ := List.mem_map.1 hmem
    obtain ⟨hmem, hcompleted⟩ := List.mem_filter.1 hfilter
    have hok := Task.isOk_of_isCompleted (report_eq_reportOn hpool hmem) hcompleted
    cases h : (analyzeFile setup tree task.report.path).2 with
    | ok findings =>
        obtain ⟨text, unit, hread, hparse, -⟩ := analyzeFile_ok_iff.1 h
        exact ⟨text, unit, hread, hparse⟩
    | error failure => rw [h] at hok; cases hok
  sourceLoc_eq := by
    have hloc := value_counters hpool .loc
    rw [sum_total_of_source rfl rfl hpool] at hloc
    simpa [Counter.value, Update.amount] using hloc
  filesWithProblems_eq := by
    have hproblems := value_counters hpool .problems
    rw [sum_total_of_source rfl rfl hpool] at hproblems
    simp only [Counter.value, Update.amount, sum_map_if] at hproblems
    simpa [List.countP_eq_length_filter] using hproblems

/-! ## All files done -/

/-- The marks that a file leaves in the log: one if it fails. -/
def skipNotes (setup : Setup) (tree : Tree) (path : Path) : List Event :=
  match (analyzeFile setup tree path).2 with
  | .ok _ => []
  | .error failure => [skipNote path failure]

def succeeds (setup : Setup) (tree : Tree) (path : Path) : Bool :=
  (analyzeFile setup tree path).2.isOk

/-- The state of the counters, the log and the records when all files are done:
what is counted for sources is counted for the files that are counted as
analysed, and a file that fails is counted, marked in the log, and leaves no
records. -/
structure FinalTally (setup : Setup) (tree : Tree) (paths : List Path) (pool : Pool) :
    Prop where
  found_eq : pool.counters.filesFound = paths.length
  done_eq_found :
    pool.counters.filesAnalyzed + pool.counters.filesFailed = pool.counters.filesFound
  analyzed_eq : pool.counters.filesAnalyzed = (paths.filter (succeeds setup tree)).length
  completed_eq : pool.completed = paths.filter (succeeds setup tree)
  failed_eq : pool.counters.filesFailed = (paths.filter (!succeeds setup tree ·)).length
  notes_perm :
    (pool.events.filter isSkipNote).Perm (paths.flatMap (skipNotes setup tree))
  perFile_eq : pool.perFile = paths.map fun path => (analysedFile setup tree path).records

theorem reportOn_records {path : Path} :
    (reportOn setup tree path).records = (analysedFile setup tree path).records :=
  AnalysedFile.report_records (analysedFile setup tree path)

theorem reportOn_skipNotes {path : Path} :
    (reportOn setup tree path).events.filter isSkipNote = skipNotes setup tree path := by
  unfold skipNotes
  cases h : (analyzeFile setup tree path).2 with
  | ok findings => exact (reportOn_of_ok h).2.2
  | error failure => exact (reportOn_of_error h).2.2

theorem amount_analyzed_reportOn (path : Path) :
    ((reportOn setup tree path).updates.map (Update.amount .analyzed)).sum =
      if succeeds setup tree path then 1 else 0 := by
  rw [succeeds]
  cases h : (analyzeFile setup tree path).2 with
  | ok findings => rw [(reportOn_of_ok h).2.1]; rfl
  | error failure => rw [(reportOn_of_error h).2.1]; rfl

theorem amount_failed_reportOn (path : Path) :
    ((reportOn setup tree path).updates.map (Update.amount .failed)).sum =
      if !succeeds setup tree path then 1 else 0 := by
  rw [succeeds]
  cases h : (analyzeFile setup tree path).2 with
  | ok findings => rw [(reportOn_of_ok h).2.1]; rfl
  | error failure => rw [(reportOn_of_error h).2.1]; rfl

section Done

variable {before : Counters} {paths : List Path}
  (hpool : pool.Accounts before (paths.map (reportOn setup tree)))
  (hdone : pool.isDone = true)

include hpool hdone

theorem counted_of_isDone {task : Task} (hmem : task ∈ pool.tasks) :
    task.counted = (reportOn setup tree task.report.path).updates := by
  rw [Task.counted_of_isDelivered (List.all_eq_true.1 hdone task hmem)]
  exact congrArg FileReport.updates (report_eq_reportOn hpool hmem)

theorem isCompleted_of_isDone {task : Task} (hmem : task ∈ pool.tasks) :
    task.isCompleted = succeeds setup tree task.report.path := by
  rw [Task.isCompleted, counted_of_isDone hpool hdone hmem, succeeds]
  cases h : (analyzeFile setup tree task.report.path).2 with
  | ok findings =>
      rw [(reportOn_of_ok h).2.1]
      rfl
  | error failure =>
      rw [(reportOn_of_error h).2.1]
      rfl

theorem completed_of_isDone : pool.completed = paths.filter (succeeds setup tree) := by
  rw [← paths_eq hpool, List.filter_map, completed]
  refine congrArg _ (List.filter_congr fun task hmem => ?_)
  exact isCompleted_of_isDone hpool hdone hmem

theorem sum_total_of_isDone (counter : Counter) :
    (pool.tasks.map (Task.total counter)).sum = (paths.map fun path =>
      ((reportOn setup tree path).updates.map (Update.amount counter)).sum).sum := by
  conv => rhs; rw [← paths_eq hpool, List.map_map]
  refine congrArg List.sum (List.map_congr_left fun task hmem => ?_)
  rw [Task.total, counted_of_isDone hpool hdone hmem]
  rfl

/-- A counter that each file adds one to or nothing counts those files. -/
theorem sum_total_eq_length {counter : Counter} {p : Path → Bool}
    (hone : ∀ path, ((reportOn setup tree path).updates.map (Update.amount counter)).sum =
      if p path then 1 else 0) :
    (pool.tasks.map (Task.total counter)).sum = (paths.filter p).length := by
  rw [sum_total_of_isDone hpool hdone]
  simp only [hone, sum_map_if]
  simp

theorem notes_of_isDone :
    (pool.events.filter isSkipNote).Perm (paths.flatMap (skipNotes setup tree)) := by
  refine ((events_of_isDone hpool hdone).filter isSkipNote).trans (List.Perm.of_eq ?_)
  rw [runReports, List.filter_flatMap, List.flatMap_map]
  exact List.flatMap_congr fun path _ => reportOn_skipNotes

theorem perFile_of_isDone :
    pool.perFile = paths.map fun path => (analysedFile setup tree path).records := by
  rw [hpool.perFile_eq, ← paths_eq hpool, List.map_map]
  refine List.map_congr_left fun task hmem => ?_
  rw [Task.collected, if_pos (List.all_eq_true.1 hdone task hmem), Function.comp_apply,
    ← reportOn_records, ← report_eq_reportOn hpool hmem]

end Done

theorem finalTally_of_isDone {paths : List Path}
    (hpool : pool.Accounts { filesFound := paths.length } (paths.map (reportOn setup tree)))
    (hdone : pool.isDone = true) : pool.FinalTally setup tree paths := by
  have hfound : pool.counters.filesFound = paths.length := by
    rw [hpool.counters_eq, applyAll_filesFound]
  have hanalyzed := value_counters hpool .analyzed
  have hfailed := value_counters hpool .failed
  rw [sum_total_eq_length hpool hdone amount_analyzed_reportOn] at hanalyzed
  rw [sum_total_eq_length hpool hdone amount_failed_reportOn] at hfailed
  simp only [Counter.value, Int.zero_add] at hanalyzed hfailed
  have hsplit := List.length_eq_length_filter_add (l := paths) (succeeds setup tree)
  exact {
    found_eq := hfound
    done_eq_found := by rw [hanalyzed, hfailed, hfound]; omega
    analyzed_eq := hanalyzed
    completed_eq := completed_of_isDone hpool hdone
    failed_eq := hfailed
    notes_perm := notes_of_isDone hpool hdone
    perFile_eq := perFile_of_isDone hpool hdone }

end Pool

/-! ## The run -/

/-- A run over a directory. -/
inductive DirectoryRun where
  /-- The counters are set back, and files are looked for. -/
  | looking
  /-- There is no such directory, or it cannot be searched. -/
  | refused (failure : Failure)
  /-- The files are worked on. -/
  | analysing (pool : Pool)
  /-- All files are done, and the result is handed out. -/
  | ended (pool : Pool) (outcome : Outcome (List Record))

namespace DirectoryRun

/-- The files of the run with what they share; there are none before they are
found. -/
def pool : DirectoryRun → Pool
  | looking => .start {} []
  | refused _ => .start {} []
  | analysing pool => pool
  | ended pool _ => pool

/-- What is left behind when all files are done. -/
def outcomeOf (directory : Path) (pool : Pool) : Outcome (List Record) :=
  let found := pool.tasks.length
  { result := requireRecords directory found pool.records
    counters := pool.counters
    events :=
      ⟨.info, loggerName, s!"Found {found} source files in {directory.text}"⟩ ::
        pool.events ++
          [⟨.info, loggerName, s!"Total classes found: {pool.records.length}"⟩]
    files := pool.calls
    discovered := some found }

/-- A step of the run. While the files are worked on it is a step of the pool, in
which task number `i` moves. -/
def step (setup : Setup) (tree : Tree) (directory : Path) (workers i : Nat) :
    DirectoryRun → Option DirectoryRun
  | looking =>
    match findSources setup tree directory with
    | .error failure => some (.refused failure)
    | .ok paths =>
      some (.analysing
        (.start { filesFound := paths.length } (paths.map (reportOn setup tree))))
  | refused _ => none
  | analysing pool =>
    if pool.isDone then some (.ended pool (outcomeOf directory pool))
    else (pool.step workers i).map .analysing
  | ended _ _ => none

def run (setup : Setup) (tree : Tree) (directory : Path) (workers : Nat) :
    List Nat → DirectoryRun → Option DirectoryRun
  | [], state => some state
  | i :: rest, state =>
    match state.step setup tree directory workers i with
    | some next => run setup tree directory workers rest next
    | none => none

/-- What is known of a run at each of its stages. -/
def Sound (setup : Setup) (tree : Tree) (directory : Path) : DirectoryRun → Prop
  | looking => True
  | refused failure => findSources setup tree directory = .error failure
  | analysing pool => ∃ paths, findSources setup tree directory = .ok paths ∧
      pool.Accounts { filesFound := paths.length } (paths.map (reportOn setup tree))
  | ended pool outcome => ∃ paths, findSources setup tree directory = .ok paths ∧
      pool.Accounts { filesFound := paths.length } (paths.map (reportOn setup tree)) ∧
      pool.isDone = true ∧ outcome = outcomeOf directory pool

variable {directory : Path} {workers i : Nat} {state next : DirectoryRun}

theorem step_sound (hstate : state.Sound setup tree directory)
    (h : state.step setup tree directory workers i = some next) :
    next.Sound setup tree directory := by
  cases state with
  | looking =>
      simp only [step] at h
      split at h
      · next failure hfind =>
          injection h with h
          subst h
          exact hfind
      · next paths hfind =>
          injection h with h
          subst h
          exact ⟨paths, hfind, Pool.start_accounts _ _⟩
  | refused failure => cases h
  | analysing pool =>
      obtain ⟨paths, hfind, hpool⟩ := hstate
      simp only [step] at h
      split at h
      · next hdone =>
          injection h with h
          subst h
          exact ⟨paths, hfind, hpool, hdone, rfl⟩
      · obtain ⟨moved, hmoved, rfl⟩ := Option.map_eq_some_iff.1 h
        exact ⟨paths, hfind, Pool.advance_accounts hpool (Pool.step_eq_some hmoved).2⟩
  | ended pool outcome => cases h

theorem run_sound {schedule : List Nat} (hstate : state.Sound setup tree directory)
    (h : state.run setup tree directory workers schedule = some next) :
    next.Sound setup tree directory := by
  induction schedule generalizing state with
  | nil =>
      injection h with h
      subst h
      exact hstate
  | cons i rest ih =>
      simp only [run] at h
      split at h
      · next middle hstep => exact ih (step_sound hstate hstep) h
      · cases h

theorem tally_of_sound (h : state.Sound setup tree directory) :
    state.pool.Tally setup tree := by
  cases state with
  | looking => exact @Pool.tally_of_accounts setup tree _ [] (Pool.start_accounts {} [])
  | refused failure =>
      exact @Pool.tally_of_accounts setup tree _ [] (Pool.start_accounts {} [])
  | analysing pool =>
      obtain ⟨paths, -, hpool⟩ := h
      exact Pool.tally_of_accounts hpool
  | ended pool outcome =>
      obtain ⟨paths, -, hpool, -, -⟩ := h
      exact Pool.tally_of_accounts hpool

theorem requireRecords_emptyResult_iff {directory : Path} {found : Nat}
    {records : List Record} :
    (∃ reason, requireRecords directory found records =
      .error (.fault (.emptyResult reason))) ↔ records = [] := by
  cases records with
  | nil =>
      simp only [requireRecords, List.isEmpty_nil, Bool.not_true, Bool.false_eq_true,
        if_false, iff_true]
      split <;> exact ⟨_, rfl⟩
  | cons record rest => simp [requireRecords]

/-- Whatever the schedule was, a run leaves behind what the loop over the files
leaves behind, but for the order of the log and of what the caller was told. -/
theorem outcome_eq_runDirectory {pool : Pool} {outcome : Outcome (List Record)}
    (h : (ended pool outcome).Sound setup tree directory) :
    outcome.result = (runDirectory setup tree directory).result ∧
    outcome.counters = (runDirectory setup tree directory).counters ∧
    outcome.discovered = (runDirectory setup tree directory).discovered ∧
    outcome.events.Perm (runDirectory setup tree directory).events ∧
    outcome.files.Perm (runDirectory setup tree directory).files := by
  obtain ⟨paths, hfind, hpool, hdone, rfl⟩ := h
  have hlength : pool.tasks.length = paths.length := by
    rw [← Pool.paths_eq hpool, List.length_map]
  have hrecords := Pool.records_of_isDone hpool hdone
  have hcounters := Pool.counters_of_isDone hpool hdone
  have hevents := Pool.events_of_isDone hpool hdone
  have hcalls := Pool.calls_of_isDone hpool hdone
  rw [runDirectory, hfind, outcomeOf, hlength, hrecords]
  exact ⟨rfl, hcounters, rfl, (hevents.append_right _).cons _, hcalls⟩

end DirectoryRun

theorem succeeds_eq_false_iff {path : Path} :
    Pool.succeeds setup tree path = false ↔
      ∃ failure, FailsAt setup tree path failure := by
  simp only [← analyzeFile_error_iff, Pool.succeeds]
  cases (analyzeFile setup tree path).2 with
  | ok findings => simp [Except.isOk, Except.toBool]
  | error failure => simp [Except.isOk, Except.toBool]

/-- The counters of a run over a directory, whoever works on its files and in
whatever order. At every moment no more files are done than were found, and what
is counted for sources is counted for exactly those whose analysis has completed.
When all files are done, these are the files counted as analysed, and together
with the files left out they are all that were found. A file is left out when one
of the stages of its analysis fails; it then has one update, one mark in the log
and no records. The run fails for want of records exactly if there are none, and
its result and its counters do not depend on the schedule. -/
theorem directory_run_accounts_for_every_file (setup : Setup) (tree : Tree)
    (directory : Path) (workers : Nat) (schedule : List Nat) (state : DirectoryRun)
    (hrun : DirectoryRun.looking.run setup tree directory workers schedule = some state) :
    state.pool.Tally setup tree ∧
    (∀ pool, (state = .analysing pool ∧ pool.isDone = true) ∨
        (∃ outcome, state = .ended pool outcome) →
      ∃ paths, findSources setup tree directory = .ok paths ∧
        pool.FinalTally setup tree paths) ∧
    (∀ path, Pool.succeeds setup tree path = false ↔
      ∃ failure, FailsAt setup tree path failure) ∧
    (∀ path failure, FailsAt setup tree path failure →
      (reportOn setup tree path).records = [] ∧
      (reportOn setup tree path).updates = [.failed] ∧
      (reportOn setup tree path).events.filter isSkipNote = [skipNote path failure]) ∧
    (∀ pool outcome, state = .ended pool outcome →
      outcome.result = (runDirectory setup tree directory).result ∧
      outcome.counters = pool.counters ∧
      outcome.counters = (runDirectory setup tree directory).counters ∧
      ((∃ reason, outcome.result = .error (.fault (.emptyResult reason))) ↔
        pool.records = [])) := by
  have hlooking : DirectoryRun.looking.Sound setup tree directory := trivial
  have hsound := DirectoryRun.run_sound hlooking hrun
  refine ⟨DirectoryRun.tally_of_sound hsound, ?_, fun path => succeeds_eq_false_iff,
    fun path failure h => reportOn_of_error (analyzeFile_error_iff.2 h), ?_⟩
  · rintro pool (⟨rfl, hdone⟩ | ⟨outcome, rfl⟩)
    · obtain ⟨paths, hfind, hpool⟩ := hsound
      exact ⟨paths, hfind, Pool.finalTally_of_isDone hpool hdone⟩
    · obtain ⟨paths, hfind, hpool, hdone, -⟩ := hsound
      exact ⟨paths, hfind, Pool.finalTally_of_isDone hpool hdone⟩
  · rintro pool outcome rfl
    obtain ⟨hresult, hcounters, -⟩ := DirectoryRun.outcome_eq_runDirectory hsound
    obtain ⟨paths, -, -, -, rfl⟩ := hsound
    exact ⟨hresult, rfl, hcounters, DirectoryRun.requireRecords_emptyResult_iff⟩

/-- A directory with two files of one character each. -/
def twoFiles : Tree :=
  { top := [("src", .folder [("A.java", .file [0x61]), ("B.java", .file [0x62])])] }

def bareTree : Node := { kind := "program", start := 0, stop := 1 }

/-- A parser that gives every text a tree without types, but breaks down on the
second file. -/
def brittleSetup : Setup where
  parser text := if text = "b" then .error (.defect "no tree") else .ok bareTree

theorem findSources_twoFiles :
    findSources brittleSetup twoFiles ⟨"", ["src"]⟩ =
      .ok [⟨"", ["src", "A.java"]⟩, ⟨"", ["src", "B.java"]⟩] := by
  have hleaves : Files.leaves (Files.canEnter twoFiles ⟨"", ["src"]⟩) ⟨"", ["src"]⟩
      [("A.java", .file [0x61]), ("B.java", .file [0x62])] =
      [⟨"", ["src", "A.java"]⟩, ⟨"", ["src", "B.java"]⟩] := by
    simp only [Files.leaves, Files.lowerLeaves]
    rfl
  show (do
    let candidates := (Files.leaves (Files.canEnter twoFiles ⟨"", ["src"]⟩) ⟨"", ["src"]⟩
      [("A.java", .file [0x61]), ("B.java", .file [0x62])]).filter
        fun leaf => !twoFiles.isFolder leaf
    let found ← candidates.filterM (Files.isSource twoFiles ⟨[".java"], none⟩)
    return found.mergeSort Files.precedes) = _
  rw [hleaves]
  exact congrArg Except.ok (List.mergeSort_of_pairwise (by decide))

theorem reportOn_twoFiles_first :
    reportOn brittleSetup twoFiles ⟨"", ["src", "A.java"]⟩ =
      { path := ⟨"", ["src", "A.java"]⟩
        records := []
        updates := [.source 1 false, .analyzed]
        events := [⟨.debug, loggerName, "Processing: src/A.java"⟩] } := by
  have hread : readSource brittleSetup twoFiles ⟨"", ["src", "A.java"]⟩ = .ok "a" := rfl
  have hparse : parseUnit brittleSetup.parser "a" "src/A.java" =
      .ok (.ofTree "src/A.java" "a" bareTree) := rfl
  have htypes : (Java.CompilationUnit.ofTree "src/A.java" "a" bareTree).enumerate = [] := by
    show Java.enumerateStack _ _ [] = []
    rw [Java.enumerateStack]
  rw [reportOn, analyzeFile, hread]
  show reportOf _ (_ :: (analyzeText brittleSetup "a" "src/A.java").1,
    (analyzeText brittleSetup "a" "src/A.java").2) = _
  simp only [analyzeText, hparse, analyzeUnit, Metrics.aggregate, Metrics.outcomes, htypes]
  rfl

theorem reportOn_twoFiles_second :
    reportOn brittleSetup twoFiles ⟨"", ["src", "B.java"]⟩ =
      { path := ⟨"", ["src", "B.java"]⟩
        records := []
        updates := [.failed]
        events := [⟨.debug, loggerName, "Processing: src/B.java"⟩,
          skipNote ⟨"", ["src", "B.java"]⟩ (.parserDefect "no tree")] } := rfl

/-- Two workers take one file each; the file that fails is done first. -/
theorem directory_run_accounts_for_two_files :
    ∃ pool outcome, DirectoryRun.looking.run brittleSetup twoFiles ⟨"", ["src"]⟩ 2
        [0, 0, 1, 0, 1, 1, 0, 1, 1, 1, 0, 1, 0, 0, 0, 0] = some (.ended pool outcome) ∧
      pool.FinalTally brittleSetup twoFiles
        [⟨"", ["src", "A.java"]⟩, ⟨"", ["src", "B.java"]⟩] ∧
      pool.counters = ⟨2, 1, 1, 0, 1⟩ ∧
      (runDirectory brittleSetup twoFiles ⟨"", ["src"]⟩).counters = ⟨2, 1, 1, 0, 1⟩ := by
  have hseen : (DirectoryRun.looking.run brittleSetup twoFiles ⟨"", ["src"]⟩ 2
      [0, 0, 1, 0, 1, 1, 0, 1, 1, 1, 0, 1, 0, 0, 0, 0]).map (fun state =>
        match state with
        | .ended pool _ => some pool.counters
        | _ => none) = some (some ⟨2, 1, 1, 0, 1⟩) := by
    simp only [DirectoryRun.run, DirectoryRun.step, findSources_twoFiles, List.map_cons,
      List.map_nil, reportOn_twoFiles_first, reportOn_twoFiles_second]
    decide
  obtain ⟨state, hrun, hstate⟩ := Option.map_eq_some_iff.1 hseen
  obtain ⟨-, hfinal, -, -, hended⟩ := directory_run_accounts_for_every_file brittleSetup
    twoFiles ⟨"", ["src"]⟩ 2 _ state hrun
  cases state with
  | looking | refused failure | analysing pool => cases hstate
  | ended pool outcome =>
      injection hstate with hcounters
      obtain ⟨paths, hfind, htally⟩ := hfinal pool (Or.inr ⟨outcome, rfl⟩)
      rw [findSources_twoFiles] at hfind
      injection hfind with hfind
      subst hfind
      obtain ⟨-, hsame, hrunDirectory, -⟩ := hended pool outcome rfl
      exact ⟨pool, outcome, hrun, htally, hcounters,
        hrunDirectory.symm.trans (hsame.trans hcounters)⟩

end JavaMetrics.Analysis
