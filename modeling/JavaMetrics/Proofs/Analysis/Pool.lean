import JavaMetrics.Proofs.Analysis.Updates
import JavaMetrics.Proofs.Report.StableSort
import Mathlib.Data.List.Basic

/-!
# Files worked on side by side

A run may hand its files to a pool of workers. This file says what such a run can
do, step by step, and proves that it cannot do anything a loop over the files
would not do as well.

Every file is a task. A task waits, is taken by a worker, which analyses the
file, and then does what the analysis asks for, one action at a time: an event
is noted, or an update is made while a lock is held. After its last action its
records are there, and the run collects them at some later time and tells the
caller. What a task does next is thus always settled by the task itself; the
only thing left open is which task moves, and a schedule is a list of such
choices. The pool restricts them in one way, that no more tasks are under way
than there are workers. A loop restricts them to the first file that it is not
done with.

The invariant is `Pool.Accounts`: what all tasks share is what the tasks have
done so far, added up in the order of the files. It holds whatever is restricted,
so it needs one step lemma, `advance_accounts`, and serves the pool and the loop
alike.
-/

namespace JavaMetrics.Analysis

open Files (Path)
open Log (Event)
open Metrics (Record)
open Report (Counters)

/-! ## Tasks -/

/-- What a step of a task can do to what all tasks share. -/
inductive Effect where
  /-- An event is logged. -/
  | note (event : Event)
  /-- The counters are changed while the lock is held. -/
  | count (update : Update)
  /-- The records of a file are collected, and the caller is told. -/
  | deliver (path : Path) (records : List Record)

namespace Effect

def events : Effect → List Event
  | note event => [event]
  | _ => []

def updates : Effect → List Update
  | count update => [update]
  | _ => []

def calls : Effect → List (Path × List Record)
  | deliver path records => [(path, records)]
  | _ => []

end Effect

/-- What a worker does with an analysed file, in order. Everything there is to
log comes before the counters change. -/
def FileReport.actions (report : FileReport) : List Effect :=
  report.events.map .note ++ report.updates.map .count

/-- How far a task has got. -/
inductive Phase where
  /-- No worker has taken it. -/
  | waiting
  /-- A worker has taken it, and analyses the file. -/
  | started
  /-- The file is analysed, and so many of the actions are done. -/
  | working (done : Nat)
  /-- The records are there to be collected. -/
  | finished
  /-- The records are collected. -/
  | delivered
deriving DecidableEq

/-- A file in a run. What the analysis of the file gives is known beforehand,
because it depends on nothing that other tasks do. -/
structure Task where
  report : FileReport
  phase : Phase := .waiting

namespace Task

def isDelivered (task : Task) : Bool :=
  decide (task.phase = .delivered)

def isBusy (task : Task) : Bool :=
  match task.phase with
  | .started => true
  | .working _ => true
  | _ => false

/-- The next step of a task: the phase after it, and what it does. -/
def step (task : Task) : Option (Phase × Option Effect) :=
  match task.phase with
  | .waiting => some (.started, none)
  | .started => some (.working 0, none)
  | .working done =>
    match task.report.actions[done]? with
    | some action => some (.working (done + 1), some action)
    | none => some (.finished, none)
  | .finished => some (.delivered, some (.deliver task.report.path task.report.records))
  | .delivered => none

/-- What the task has done so far. -/
def performed (task : Task) : List Effect :=
  match task.phase with
  | .waiting => []
  | .started => []
  | .working done => task.report.actions.take done
  | .finished => task.report.actions
  | .delivered => task.report.actions ++ [.deliver task.report.path task.report.records]

def noted (task : Task) : List Event :=
  task.performed.flatMap Effect.events

def counted (task : Task) : List Update :=
  task.performed.flatMap Effect.updates

/-- What the caller has been told about the task. -/
def told (task : Task) : List (Path × List Record) :=
  task.performed.flatMap Effect.calls

/-- The records that have been collected from the task. -/
def collected (task : Task) : List Record :=
  if task.isDelivered then task.report.records else []

/-- The number of steps that are left. -/
def remaining (task : Task) : Nat :=
  match task.phase with
  | .waiting => task.report.actions.length + 4
  | .started => task.report.actions.length + 3
  | .working done => task.report.actions.length - done + 2
  | .finished => 1
  | .delivered => 0

end Task

/-! ## Runs -/

/-- A run under way: its tasks in the order of the files, and what they share. -/
structure Pool where
  tasks : List Task
  counters : Counters
  events : List Event := []
  /-- The records collected so far, a list for each file. -/
  perFile : List (List Record)
  /-- What the caller has been told so far, in the order of time. -/
  calls : List (Path × List Record) := []

namespace Pool

def start (counters : Counters) (reports : List FileReport) : Pool :=
  { tasks := reports.map fun report => { report }
    counters
    perFile := reports.map fun _ => [] }

/-- The run after task number `i` has had an effect. -/
def share (pool : Pool) (i : Nat) : Option Effect → Pool
  | none => pool
  | some (.note event) => { pool with events := pool.events ++ [event] }
  | some (.count update) => { pool with counters := update.apply pool.counters }
  | some (.deliver path records) =>
    { pool with
      perFile := pool.perFile.set i records
      calls := pool.calls ++ [(path, records)] }

/-- The run after a step of task number `i`. -/
def advance (pool : Pool) (i : Nat) : Option Pool :=
  match pool.tasks[i]? with
  | none => none
  | some task =>
    match task.step with
    | none => none
    | some (phase, effect) =>
      some { pool.share i effect with tasks := pool.tasks.set i { task with phase } }

def busy (pool : Pool) : Nat :=
  pool.tasks.countP Task.isBusy

/-- May task number `i` move? One worker, or a single file, means a loop: only
the first task that is not delivered moves. Otherwise every task may, but a
waiting one needs a worker that is free. -/
def mayMove (pool : Pool) (workers i : Nat) : Bool :=
  if workers = 1 ∨ pool.tasks.length < 2 then
    decide (pool.tasks.findIdx (!·.isDelivered) = i)
  else
    pool.tasks[i]?.all fun task => decide (task.phase = .waiting → pool.busy < workers)

def step (pool : Pool) (workers i : Nat) : Option Pool :=
  if pool.mayMove workers i then pool.advance i else none

/-- The run after the steps of a schedule, which names the task that moves each
time. -/
def run (workers : Nat) : List Nat → Pool → Option Pool
  | [], pool => some pool
  | i :: rest, pool =>
    match pool.step workers i with
    | some next => run workers rest next
    | none => none

def isDone (pool : Pool) : Bool :=
  pool.tasks.all Task.isDelivered

def records (pool : Pool) : List Record :=
  Report.sortRecords pool.perFile.flatten

def remaining (pool : Pool) : Nat :=
  (pool.tasks.map Task.remaining).sum

end Pool

/-! ## What one step does -/

/-- A step adds its effect to what the task has done, and nothing else. -/
theorem Task.step_performed {task : Task} {phase : Phase} {effect : Option Effect}
    (h : task.step = some (phase, effect)) :
    ({ task with phase } : Task).performed = task.performed ++ effect.toList := by
  obtain ⟨report, current⟩ := task
  cases current with
  | waiting =>
      simp only [Task.step, Option.some.injEq, Prod.mk.injEq] at h
      obtain ⟨rfl, rfl⟩ := h
      rfl
  | started =>
      simp only [Task.step, Option.some.injEq, Prod.mk.injEq] at h
      obtain ⟨rfl, rfl⟩ := h
      rfl
  | working done =>
      simp only [Task.step] at h
      split at h
      · next action haction =>
          simp only [Option.some.injEq, Prod.mk.injEq] at h
          obtain ⟨rfl, rfl⟩ := h
          simp only [Task.performed, List.take_add_one, haction]
      · next hnone =>
          simp only [Option.some.injEq, Prod.mk.injEq] at h
          obtain ⟨rfl, rfl⟩ := h
          have hle : report.actions.length ≤ done := by simpa using hnone
          simp only [Task.performed, List.take_of_length_le hle, Option.toList_none,
            List.append_nil]
  | finished =>
      simp only [Task.step, Option.some.injEq, Prod.mk.injEq] at h
      obtain ⟨rfl, rfl⟩ := h
      rfl
  | delivered => cases h

theorem Task.step_remaining {task : Task} {phase : Phase} {effect : Option Effect}
    (h : task.step = some (phase, effect)) :
    ({ task with phase } : Task).remaining + 1 = task.remaining := by
  obtain ⟨report, current⟩ := task
  cases current with
  | working done =>
      simp only [Task.step] at h
      split at h
      · next action haction =>
          obtain ⟨hlt, -⟩ := List.getElem?_eq_some_iff.1 haction
          simp only [Option.some.injEq, Prod.mk.injEq] at h
          obtain ⟨rfl, rfl⟩ := h
          simp only [Task.remaining]
          omega
      · next hnone =>
          have hle : report.actions.length ≤ done := by simpa using hnone
          simp only [Option.some.injEq, Prod.mk.injEq] at h
          obtain ⟨rfl, rfl⟩ := h
          simp only [Task.remaining]
          omega
  | waiting | started | finished =>
      simp only [Task.step, Option.some.injEq, Prod.mk.injEq] at h
      obtain ⟨rfl, rfl⟩ := h
      rfl
  | delivered => cases h

theorem FileReport.events_actions (report : FileReport) :
    report.actions.flatMap Effect.events = report.events := by
  simp [FileReport.actions, List.flatMap_append, List.flatMap_map, Effect.events]

theorem FileReport.updates_actions (report : FileReport) :
    report.actions.flatMap Effect.updates = report.updates := by
  simp [FileReport.actions, List.flatMap_append, List.flatMap_map, Effect.updates]

theorem FileReport.calls_actions (report : FileReport) :
    report.actions.flatMap Effect.calls = [] := by
  simp [FileReport.actions, List.flatMap_append, List.flatMap_map, Effect.calls]

/-- The last step of a task delivers its records; no other step delivers
anything. -/
theorem Task.step_cases {task : Task} {phase : Phase} {effect : Option Effect}
    (h : task.step = some (phase, effect)) :
    (phase = .delivered ∧
      effect = some (.deliver task.report.path task.report.records)) ∨
    (task.phase ≠ .delivered ∧ phase ≠ .delivered ∧
      ∀ action ∈ effect, action.calls = []) := by
  obtain ⟨report, current⟩ := task
  cases current with
  | working done =>
      right
      simp only [Task.step] at h
      split at h
      · next action haction =>
          simp only [Option.some.injEq, Prod.mk.injEq] at h
          obtain ⟨rfl, rfl⟩ := h
          refine ⟨by simp, by simp, fun other hother => ?_⟩
          obtain rfl : action = other := Option.mem_some.1 hother
          exact List.flatMap_eq_nil_iff.1 report.calls_actions action
            (List.mem_of_getElem? haction)
      · simp only [Option.some.injEq, Prod.mk.injEq] at h
        obtain ⟨rfl, rfl⟩ := h
        exact ⟨by simp, by simp, by simp⟩
  | waiting | started =>
      right
      simp only [Task.step, Option.some.injEq, Prod.mk.injEq] at h
      obtain ⟨rfl, rfl⟩ := h
      exact ⟨by simp, by simp, by simp⟩
  | finished =>
      left
      simp only [Task.step, Option.some.injEq, Prod.mk.injEq] at h
      exact ⟨h.1.symm, h.2.symm⟩
  | delivered => cases h

theorem Task.step_eq_none_iff {task : Task} :
    task.step = none ↔ task.isDelivered = true := by
  obtain ⟨report, current⟩ := task
  cases current with
  | working done =>
      simp only [Task.step, Task.isDelivered]
      split <;> simp
  | waiting | started | finished | delivered => simp [Task.step, Task.isDelivered]

namespace Pool

variable {pool next : Pool} {workers i : Nat}

theorem advance_eq_some (h : pool.advance i = some next) :
    ∃ task phase effect, pool.tasks[i]? = some task ∧
      task.step = some (phase, effect) ∧
      next = { pool.share i effect with
        tasks := pool.tasks.set i { task with phase } } := by
  unfold advance at h
  split at h
  · cases h
  · next task htask =>
      split at h
      · cases h
      · next phase effect hstep =>
          injection h with h
          exact ⟨task, phase, effect, htask, hstep, h.symm⟩

theorem share_counters (effect : Option Effect) :
    (pool.share i effect).counters =
      applyAll pool.counters (effect.toList.flatMap Effect.updates) := by
  rcases effect with _ | ⟨event⟩ | ⟨update⟩ | ⟨path, records⟩ <;> rfl

theorem share_events (effect : Option Effect) :
    (pool.share i effect).events =
      pool.events ++ effect.toList.flatMap Effect.events := by
  rcases effect with _ | ⟨event⟩ | ⟨update⟩ | ⟨path, records⟩ <;>
    simp [share, Effect.events]

theorem share_calls (effect : Option Effect) :
    (pool.share i effect).calls =
      pool.calls ++ effect.toList.flatMap Effect.calls := by
  rcases effect with _ | ⟨event⟩ | ⟨update⟩ | ⟨path, records⟩ <;>
    simp [share, Effect.calls]

theorem share_perFile_of_no_calls {effect : Option Effect}
    (h : ∀ action ∈ effect, action.calls = []) :
    (pool.share i effect).perFile = pool.perFile := by
  rcases effect with _ | ⟨event⟩ | ⟨update⟩ | ⟨path, records⟩
  · rfl
  · rfl
  · rfl
  · exact absurd (h _ rfl) (by simp [Effect.calls])

/-- The records collected from a task change when it is delivered, and what is
stored for its file changes with them. -/
theorem share_perFile {task : Task} {phase : Phase} {effect : Option Effect}
    (hstep : task.step = some (phase, effect))
    (hi : pool.perFile[i]? = some task.collected) :
    (pool.share i effect).perFile =
      pool.perFile.set i ({ task with phase } : Task).collected := by
  rcases Task.step_cases hstep with ⟨rfl, rfl⟩ | ⟨hcurrent, hphase, hcalls⟩
  · rfl
  · rw [share_perFile_of_no_calls hcalls]
    obtain ⟨hlt, hget⟩ := List.getElem?_eq_some_iff.1 hi
    simp only [Task.collected, Task.isDelivered, hcurrent, hphase, decide_false,
      Bool.false_eq_true, if_false] at hget ⊢
    rw [← hget, List.set_getElem_self]

/-! ## The invariant -/

/-- What the tasks share is what they have done so far, and what is collected
from a task is stored for its file. `before` is where the counters started. -/
structure Accounts (before : Counters) (reports : List FileReport) (pool : Pool) :
    Prop where
  reports_eq : pool.tasks.map (·.report) = reports
  counters_eq : pool.counters = applyAll before (pool.tasks.flatMap Task.counted)
  events_perm : pool.events.Perm (pool.tasks.flatMap Task.noted)
  perFile_eq : pool.perFile = pool.tasks.map Task.collected
  calls_perm : pool.calls.Perm (pool.tasks.flatMap Task.told)

theorem flatMap_set_perm {α β : Type} {f : α → List β} {xs : List α} {i : Nat}
    {x y : α} {more : List β} (hx : xs[i]? = some x) (hy : f y = f x ++ more) :
    ((xs.set i y).flatMap f).Perm (xs.flatMap f ++ more) := by
  induction xs generalizing i with
  | nil => simp at hx
  | cons first rest ih =>
      cases i with
      | zero =>
          obtain rfl : first = x := by simpa using hx
          -- the addition comes before what the rest gives, so the order is another
          rw [List.set_cons_zero, List.flatMap_cons, List.flatMap_cons, hy,
            List.append_assoc, List.append_assoc]
          exact List.perm_append_comm.append_left _
      | succ i =>
          rw [List.set_cons_succ, List.flatMap_cons, List.flatMap_cons,
            List.append_assoc]
          exact (ih (by simpa using hx)).append_left _

theorem start_accounts (before : Counters) (reports : List FileReport) :
    (start before reports).Accounts before reports := by
  have hnone : ∀ {α : Type} (f : Task → List α), (∀ report, f { report } = []) →
      (start before reports).tasks.flatMap f = [] := by
    intro α f hf
    simp [start, List.flatMap_map, hf]
  refine ⟨?_, ?_, ?_, ?_, ?_⟩
  · simp [start, Function.comp_def]
  · rw [hnone Task.counted fun _ => rfl]; rfl
  · rw [hnone Task.noted fun _ => rfl]; rfl
  · simp only [start, List.map_map]
    rfl
  · rw [hnone Task.told fun _ => rfl]; rfl

/-- The step lemma. It needs to know nothing about who may move when. -/
theorem advance_accounts {before : Counters} {reports : List FileReport}
    (hpool : pool.Accounts before reports) (h : pool.advance i = some next) :
    next.Accounts before reports := by
  obtain ⟨task, phase, effect, htask, hstep, rfl⟩ := advance_eq_some h
  obtain ⟨hreports, hcounters, hevents, hperFile, hcalls⟩ := hpool
  have hperformed := Task.step_performed hstep
  refine ⟨?_, ?_, ?_, ?_, ?_⟩
  · show (pool.tasks.set i { task with phase }).map (·.report) = reports
    rw [List.map_set, ← hreports]
    obtain ⟨hlt, hget⟩ := List.getElem?_eq_some_iff.1 htask
    refine List.ext_getElem? fun j => ?_
    rw [List.getElem?_set]
    split
    · next hij =>
        subst hij
        simp [hlt, hget]
    · rfl
  · show (pool.share i effect).counters = _
    rw [share_counters, hcounters, ← applyAll_append]
    refine (applyAll_perm (flatMap_set_perm htask ?_) before).symm
    rw [Task.counted, Task.counted, hperformed, List.flatMap_append]
  · show (pool.share i effect).events.Perm _
    rw [share_events]
    refine (hevents.append_right _).trans (flatMap_set_perm htask ?_).symm
    rw [Task.noted, Task.noted, hperformed, List.flatMap_append]
  · show (pool.share i effect).perFile = _
    rw [share_perFile hstep (by rw [hperFile]; simp [htask]), List.map_set, hperFile]
  · show (pool.share i effect).calls.Perm _
    rw [share_calls]
    refine (hcalls.append_right _).trans (flatMap_set_perm htask ?_).symm
    rw [Task.told, Task.told, hperformed, List.flatMap_append]

theorem step_eq_some (h : pool.step workers i = some next) :
    pool.mayMove workers i = true ∧ pool.advance i = some next := by
  unfold step at h
  split at h
  · next hmay => exact ⟨hmay, h⟩
  · cases h

theorem run_accounts {before : Counters} {reports : List FileReport}
    {schedule : List Nat} (hpool : pool.Accounts before reports)
    (h : pool.run workers schedule = some next) : next.Accounts before reports := by
  induction schedule generalizing pool with
  | nil =>
      injection h with h
      subst h
      exact hpool
  | cons i rest ih =>
      simp only [run] at h
      split at h
      · next middle hstep =>
          exact ih (advance_accounts hpool (step_eq_some hstep).2) h
      · cases h

/-! ## Runs come to an end -/

theorem sum_map_set {α : Type} {f : α → Nat} {xs : List α} {i : Nat} {x y : α}
    (hx : xs[i]? = some x) (hy : f y + 1 = f x) :
    ((xs.set i y).map f).sum + 1 = (xs.map f).sum := by
  induction xs generalizing i with
  | nil => simp at hx
  | cons first rest ih =>
      cases i with
      | zero =>
          obtain rfl : first = x := by simpa using hx
          simp only [List.set_cons_zero, List.map_cons, List.sum_cons]
          omega
      | succ i =>
          have hrest := ih (i := i) (by simpa using hx)
          simp only [List.set_cons_succ, List.map_cons, List.sum_cons]
          omega

theorem advance_remaining (h : pool.advance i = some next) :
    next.remaining + 1 = pool.remaining := by
  obtain ⟨task, phase, effect, htask, hstep, rfl⟩ := advance_eq_some h
  exact sum_map_set htask (Task.step_remaining hstep)

theorem run_remaining {schedule : List Nat}
    (h : pool.run workers schedule = some next) :
    next.remaining + schedule.length = pool.remaining := by
  induction schedule generalizing pool with
  | nil =>
      injection h with h
      subst h
      rfl
  | cons i rest ih =>
      simp only [run] at h
      split at h
      · next middle hstep =>
          have hrest := ih h
          have hone := advance_remaining (step_eq_some hstep).2
          rw [List.length_cons]
          omega
      · cases h

theorem exists_advance {task : Task} (htask : pool.tasks[i]? = some task)
    (h : task.isDelivered = false) : ∃ next, pool.advance i = some next := by
  cases hstep : task.step with
  | none => rw [Task.step_eq_none_iff.1 hstep] at h; cases h
  | some result =>
      obtain ⟨phase, effect⟩ := result
      simp only [advance, htask, hstep]
      exact ⟨_, rfl⟩

theorem exists_step_of_loop (hloop : workers = 1 ∨ pool.tasks.length < 2)
    (h : ∃ task ∈ pool.tasks, task.isDelivered = false) :
    ∃ i next, pool.step workers i = some next := by
  obtain ⟨task, hmem, htask⟩ := h
  have hlt : pool.tasks.findIdx (!·.isDelivered) < pool.tasks.length :=
    List.findIdx_lt_length_of_exists ⟨task, hmem, by simp [htask]⟩
  have hfirst : (pool.tasks[pool.tasks.findIdx (!·.isDelivered)]).isDelivered = false := by
    have hget := @List.findIdx_getElem _ (!·.isDelivered) pool.tasks hlt
    simpa using hget
  obtain ⟨next, hnext⟩ := exists_advance (List.getElem?_eq_getElem hlt) hfirst
  refine ⟨pool.tasks.findIdx (!·.isDelivered), next, ?_⟩
  rw [step, mayMove, if_pos hloop, if_pos (by simp), hnext]

theorem exists_step_of_pool (hworkers : 1 ≤ workers)
    (hpool : ¬(workers = 1 ∨ pool.tasks.length < 2))
    (h : ∃ task ∈ pool.tasks, task.isDelivered = false) :
    ∃ i next, pool.step workers i = some next := by
  by_cases hactive : ∃ task ∈ pool.tasks,
      task.isDelivered = false ∧ task.phase ≠ .waiting
  · -- a worker that is busy can go on, and records that are there can be collected
    obtain ⟨task, hmem, hnot, hphase⟩ := hactive
    obtain ⟨i, hi⟩ := List.mem_iff_getElem?.1 hmem
    obtain ⟨next, hnext⟩ := exists_advance hi hnot
    refine ⟨i, next, ?_⟩
    rw [step, mayMove, if_neg hpool, if_pos (by simp [hi, hphase]), hnext]
  · -- all that is left waits, so every worker is free
    have hidle : pool.busy = 0 := by
      rw [busy, List.countP_eq_zero]
      rintro ⟨report, phase⟩ hmem hbusy
      refine hactive ⟨_, hmem, ?_, ?_⟩ <;> cases phase <;>
        simp [Task.isBusy, Task.isDelivered] at hbusy ⊢
    obtain ⟨task, hmem, hnot⟩ := h
    obtain ⟨i, hi⟩ := List.mem_iff_getElem?.1 hmem
    obtain ⟨next, hnext⟩ := exists_advance hi hnot
    refine ⟨i, next, ?_⟩
    rw [step, mayMove, if_neg hpool, if_pos (by simp [hi, hidle]; omega), hnext]

/-- No run gets stuck: as long as some file is not delivered, some task may
move. -/
theorem exists_step (hworkers : 1 ≤ workers) (h : pool.isDone = false) :
    ∃ i next, pool.step workers i = some next := by
  have hleft : ∃ task ∈ pool.tasks, task.isDelivered = false := by
    simpa [isDone] using h
  by_cases hloop : workers = 1 ∨ pool.tasks.length < 2
  · exact exists_step_of_loop hloop hleft
  · exact exists_step_of_pool hworkers hloop hleft

/-! ## The end of a run -/

theorem performed_of_isDone (h : pool.isDone = true) {task : Task}
    (hmem : task ∈ pool.tasks) :
    task.performed = task.report.actions ++
      [.deliver task.report.path task.report.records] := by
  have hphase : task.phase = .delivered := by
    simpa [Task.isDelivered] using List.all_eq_true.1 h task hmem
  rw [Task.performed, hphase]

theorem flatMap_performed_of_isDone {α : Type} {before : Counters}
    {reports : List FileReport} (hpool : pool.Accounts before reports)
    (h : pool.isDone = true) (f : Effect → List α) :
    (pool.tasks.flatMap fun task => task.performed.flatMap f) =
      reports.flatMap fun report => report.actions.flatMap f ++
        f (.deliver report.path report.records) := by
  rw [← hpool.reports_eq, List.flatMap_map]
  refine List.flatMap_congr fun task hmem => ?_
  rw [performed_of_isDone h hmem, List.flatMap_append, List.flatMap_singleton]

theorem counters_of_isDone {before : Counters} {reports : List FileReport}
    (hpool : pool.Accounts before reports) (h : pool.isDone = true) :
    pool.counters = (runReports before reports).counters := by
  have hall := flatMap_performed_of_isDone hpool h Effect.updates
  simp only [FileReport.updates_actions, Effect.updates, List.append_nil] at hall
  rw [hpool.counters_eq]
  exact congrArg (applyAll before) hall

theorem events_of_isDone {before : Counters} {reports : List FileReport}
    (hpool : pool.Accounts before reports) (h : pool.isDone = true) :
    pool.events.Perm (runReports before reports).events := by
  have hall := flatMap_performed_of_isDone hpool h Effect.events
  simp only [FileReport.events_actions, Effect.events, List.append_nil] at hall
  exact hpool.events_perm.trans (List.Perm.of_eq hall)

theorem calls_of_isDone {before : Counters} {reports : List FileReport}
    (hpool : pool.Accounts before reports) (h : pool.isDone = true) :
    pool.calls.Perm (runReports before reports).files := by
  have hall := flatMap_performed_of_isDone hpool h Effect.calls
  simp only [FileReport.calls_actions, Effect.calls, List.nil_append] at hall
  exact hpool.calls_perm.trans
    (List.Perm.of_eq (hall.trans List.map_eq_flatMap.symm))

theorem records_of_isDone {before : Counters} {reports : List FileReport}
    (hpool : pool.Accounts before reports) (h : pool.isDone = true) :
    pool.records = mergeReports reports := by
  have hperFile : pool.perFile = reports.map (·.records) := by
    rw [hpool.perFile_eq, ← hpool.reports_eq, List.map_map]
    refine List.map_congr_left fun task hmem => ?_
    rw [Task.collected, if_pos (List.all_eq_true.1 h task hmem)]
    rfl
  rw [records, hperFile, mergeReports, List.flatMap_def]

end Pool

/-! ## Every schedule does what the loop does -/

/-- A file with what its analysis gives: findings or a failure, and events. -/
abbrev AnalysedFile := Path × (List Event × Except Failure Findings)

/-- The records that a file contributes; none if its analysis has failed. -/
def AnalysedFile.records (file : AnalysedFile) : List Record :=
  match file.2.2 with
  | .ok findings => findings.records
  | .error _ => []

def AnalysedFile.report (file : AnalysedFile) : FileReport :=
  reportOf file.1 file.2

theorem AnalysedFile.report_path (file : AnalysedFile) :
    file.report.path = file.1 := by
  obtain ⟨path, events, findings | failure⟩ := file <;> rfl

theorem AnalysedFile.report_records (file : AnalysedFile) :
    file.report.records = file.records := by
  obtain ⟨path, events, findings | failure⟩ := file <;> rfl

def analysedFile (setup : Setup) (tree : Files.Tree) (path : Path) : AnalysedFile :=
  (path, analyzeFile setup tree path)

theorem runPaths_eq_runReports (setup : Setup) (tree : Files.Tree) (before : Counters)
    (paths : List Path) :
    runPaths setup tree before paths =
      runReports before ((paths.map (analysedFile setup tree)).map AnalysedFile.report) := by
  rw [runPaths, List.map_map]
  rfl

/-- Whatever the analysis of the files gives, however many workers there are and
in whatever order tasks move and records are collected: a run that is not done
can go on, it is done after a number of steps that is known beforehand, and then
its records, its counters and what the caller has been told are those of the
loop over the files. The records are the stable sort of the records of the files
in their order, and the caller has been told of every file once, with its own
records. -/
theorem run_outcome_of_any_schedule (workers : Nat) (hworkers : 1 ≤ workers)
    (before : Counters) (files : List AnalysedFile) (schedule : List Nat) (pool : Pool)
    (hrun : (Pool.start before (files.map AnalysedFile.report)).run workers schedule =
      some pool) :
    (pool.isDone = false → ∃ i next, pool.step workers i = some next) ∧
    schedule.length ≤ (Pool.start before (files.map AnalysedFile.report)).remaining ∧
    (pool.isDone = true →
      let loop := runReports before (files.map AnalysedFile.report)
      (∀ setup tree paths, files = paths.map (analysedFile setup tree) →
        loop = runPaths setup tree before paths) ∧
      loop.result = .ok pool.records ∧
      pool.counters = loop.counters ∧
      pool.calls.Perm loop.files ∧
      loop.files = files.map (fun file => (file.1, file.records)) ∧
      ∀ sorted, Report.StablySorted (files.flatMap AnalysedFile.records) sorted ↔
        sorted = pool.records) := by
  have haccounts := Pool.run_accounts (Pool.start_accounts before _) hrun
  have hremaining := Pool.run_remaining hrun
  refine ⟨Pool.exists_step hworkers, by omega, fun hdone => ?_⟩
  have hrecords := Pool.records_of_isDone haccounts hdone
  refine ⟨fun setup tree paths hfiles => ?_, by rw [hrecords]; rfl,
    Pool.counters_of_isDone haccounts hdone, Pool.calls_of_isDone haccounts hdone, ?_,
    fun sorted => ?_⟩
  · rw [runPaths_eq_runReports, ← hfiles]
  · simp only [runReports, List.map_map]
    refine List.map_congr_left fun file _ => ?_
    rw [Function.comp_apply, AnalysedFile.report_path, AnalysedFile.report_records]
  · rw [Report.stablySorted_iff, hrecords, mergeReports, List.flatMap_map]
    simp only [AnalysedFile.report_records]

/-- Three files, two of which declare a type of the same name; the last one
cannot be analysed. -/
def filesOfOneName : List AnalysedFile :=
  [(⟨"", ["a", "A.java"]⟩, [], .ok ⟨[{ name := "p.A", loc := 2 }], 3, false⟩),
    (⟨"", ["b", "A.java"]⟩, [], .ok ⟨[{ name := "p.A", loc := 7 }], 8, true⟩),
    (⟨"", ["c", "A.java"]⟩, [], .error (.parserDefect "no tree"))]

/-- The second file is collected before the first, and the third starts only
when one of the two workers is free. -/
def secondComesFirst : List Nat :=
  [0, 1, 1, 1, 1, 1, 2, 1, 2, 0, 0, 2, 0, 2, 0, 2, 2, 0]

theorem run_outcome_when_second_comes_first :
    ∃ pool, (Pool.start {} (filesOfOneName.map AnalysedFile.report)).run 2
        secondComesFirst = some pool ∧
      pool.isDone = true ∧
      pool.calls.map (·.1.names) =
        [["b", "A.java"], ["c", "A.java"], ["a", "A.java"]] ∧
      (runReports {} (filesOfOneName.map AnalysedFile.report)).result =
        .ok pool.records ∧
      pool.counters = ⟨0, 2, 1, 1, 11⟩ := by
  have hseen : ((Pool.start {} (filesOfOneName.map AnalysedFile.report)).run 2
      secondComesFirst).map (fun pool => (pool.isDone, pool.calls.map (·.1.names))) =
        some (true, [["b", "A.java"], ["c", "A.java"], ["a", "A.java"]]) := by
    decide
  obtain ⟨pool, hrun, hpool⟩ := Option.map_eq_some_iff.1 hseen
  obtain ⟨hisDone, hcalls⟩ := Prod.mk.inj hpool
  obtain ⟨-, -, hdone⟩ := run_outcome_of_any_schedule 2 (by decide) {} filesOfOneName
    secondComesFirst pool hrun
  obtain ⟨-, hresult, hcounters, -⟩ := hdone hisDone
  exact ⟨pool, hrun, hisDone, hcalls, hresult, hcounters.trans (by decide)⟩

end JavaMetrics.Analysis
