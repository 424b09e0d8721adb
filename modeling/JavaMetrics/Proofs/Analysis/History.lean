import JavaMetrics.Proofs.Analysis.DirectoryRun
import Mathlib.Logic.Relation

/-!
# One engine, many calls

An engine outlives its calls, and its counters with it: the analysis of a text, of a
file or of a list of files goes on counting where the calls before have stopped. A
call may also be cut short, when a function that the caller has passed fails while
files are worked on, and leaves the counters as they stand then.

`Engine.Step` says what an engine can do, one step at a time. A run over a directory
sets the counters back before anything else, and from then on they hold what this run
has counted. That is `Engine.Sound`. It is kept by every step of every call, so it
holds after any history, and a run over a directory ends with what `runDirectory`
gives, as it does on an engine that has just been made.
-/

namespace JavaMetrics.Analysis

open Files (Tree Path)
open Metrics (Record)
open Report (Counters)

/-- An engine between two calls, or at some point of a call. -/
inductive Engine where
  | idle (counters : Counters)
  /-- Some files are worked on. -/
  | onPaths (pool : Pool)
  /-- A directory is to be analysed. -/
  | entered (tree : Tree) (directory : Path) (counters : Counters)
  /-- The counters are set back, and files are looked for. -/
  | looking (tree : Tree) (directory : Path) (counters : Counters)
  /-- The files of a directory are worked on. -/
  | analysing (tree : Tree) (directory : Path) (pool : Pool)

/-- What the caller sees of a step. -/
inductive Mark where
  | silent
  /-- The call is over. -/
  | returned (answer : Except Failure (List Record))
  /-- A function of the caller has failed, and the call with it. -/
  | stopped

namespace Engine

/-- What an engine with some settings and some workers can do. The files may change from one call to
the next. -/
inductive Step (setup : Setup) (workers : Nat) : Engine → Mark → Engine → Prop
  | text (counters : Counters) (text name : String) :
      Step setup workers (.idle counters) (.returned (runText setup counters text name).result)
        (.idle (runText setup counters text name).counters)
  | file (tree : Tree) (counters : Counters) (path : Path) :
      Step setup workers (.idle counters) (.returned (runFile setup tree counters path).result)
        (.idle (runFile setup tree counters path).counters)
  | paths (tree : Tree) (counters : Counters) (paths : List Path) :
      Step setup workers (.idle counters) .silent
        (.onPaths (.start counters (paths.map (reportOn setup tree))))
  | movePaths {pool next : Pool} {i : Nat} (h : pool.step workers i = some next) :
      Step setup workers (.onPaths pool) .silent (.onPaths next)
  | stopPaths (pool : Pool) : Step setup workers (.onPaths pool) .stopped (.idle pool.counters)
  | endPaths {pool : Pool} (h : pool.isDone = true) :
      Step setup workers (.onPaths pool) (.returned (.ok pool.records)) (.idle pool.counters)
  | enter (tree : Tree) (directory : Path) (counters : Counters) :
      Step setup workers (.idle counters) .silent (.entered tree directory counters)
  | reset (tree : Tree) (directory : Path) (counters : Counters) :
      Step setup workers (.entered tree directory counters) .silent (.looking tree directory {})
  | refuse {tree : Tree} {directory : Path} {counters : Counters} {failure : Failure}
      (h : findSources setup tree directory = .error failure) :
      Step setup workers (.looking tree directory counters) (.returned (.error failure))
        (.idle counters)
  | find {tree : Tree} {directory : Path} {counters : Counters} {paths : List Path}
      (h : findSources setup tree directory = .ok paths) :
      Step setup workers (.looking tree directory counters) .silent
        (.analysing tree directory (.start { counters with filesFound := paths.length }
          (paths.map (reportOn setup tree))))
  | move {tree : Tree} {directory : Path} {pool next : Pool} {i : Nat}
      (h : pool.step workers i = some next) :
      Step setup workers (.analysing tree directory pool) .silent (.analysing tree directory next)
  | stop (tree : Tree) (directory : Path) (pool : Pool) :
      Step setup workers (.analysing tree directory pool) .stopped (.idle pool.counters)
  | conclude {tree : Tree} {directory : Path} {pool : Pool} (h : pool.isDone = true) :
      Step setup workers (.analysing tree directory pool)
        (.returned (requireRecords directory pool.tasks.length pool.records)) (.idle pool.counters)

/-- Can an engine get from one state to another, by whatever calls? -/
def Reaches (setup : Setup) (workers : Nat) : Engine → Engine → Prop :=
  Relation.ReflTransGen fun before after => ∃ mark, Step setup workers before mark after

/-- Can an engine get from one state to another without a call being over? -/
def GoesOn (setup : Setup) (workers : Nat) : Engine → Engine → Prop :=
  Relation.ReflTransGen fun before after => Step setup workers before .silent after

/-- Can a call for a directory, on an engine whose counters stand somewhere, be over with an answer
and leave its counters at some others? -/
def Answers (setup : Setup) (workers : Nat) (tree : Tree) (directory : Path) (counters : Counters)
    (answer : Except Failure (List Record)) (after : Counters) : Prop :=
  ∃ state, GoesOn setup workers (.entered tree directory counters) state ∧
    Step setup workers state (.returned answer) (.idle after)

/-- What is known of an engine at any time. -/
def Sound (setup : Setup) : Engine → Prop
  | looking _ _ counters => counters = {}
  | analysing tree directory pool => ∃ paths, findSources setup tree directory = .ok paths ∧
      pool.Accounts { filesFound := paths.length } (paths.map (reportOn setup tree))
  | _ => True

variable {setup : Setup} {workers : Nat} {state next : Engine} {mark : Mark}

theorem step_sound (hstate : state.Sound setup) (h : Step setup workers state mark next) :
    next.Sound setup := by
  cases h with
  | reset => rfl
  | find h =>
      obtain rfl := hstate
      exact ⟨_, h, Pool.start_accounts _ _⟩
  | move h =>
      obtain ⟨paths, hfind, hpool⟩ := hstate
      exact ⟨paths, hfind, Pool.advance_accounts hpool (Pool.step_eq_some h).2⟩
  | text | file | paths | movePaths | stopPaths | endPaths | enter | refuse | stop | conclude =>
      exact trivial

theorem reaches_sound (hstate : state.Sound setup) (h : Reaches setup workers state next) :
    next.Sound setup := by
  induction h with
  | refl => exact hstate
  | tail _ hstep ih =>
      obtain ⟨mark, hstep⟩ := hstep
      exact step_sound ih hstep

theorem GoesOn.reaches (h : GoesOn setup workers state next) :
    Reaches setup workers state next := by
  induction h with
  | refl => exact .refl
  | tail _ hstep ih => exact ih.tail ⟨.silent, hstep⟩

/-! ## A call for a directory -/

/-- Is the engine at some point of a call for a directory? -/
def WorksOn (tree : Tree) (directory : Path) : Engine → Prop
  | entered tree' directory' _ => tree' = tree ∧ directory' = directory
  | looking tree' directory' _ => tree' = tree ∧ directory' = directory
  | analysing tree' directory' _ => tree' = tree ∧ directory' = directory
  | _ => False

variable {tree : Tree} {directory : Path}

theorem worksOn_step (hstate : state.WorksOn tree directory)
    (h : Step setup workers state .silent next) : next.WorksOn tree directory := by
  cases h with
  | reset => exact hstate
  | find => exact hstate
  | move => exact hstate
  | paths | movePaths | enter => exact hstate.elim

theorem worksOn_of_goesOn {counters : Counters}
    (h : GoesOn setup workers (.entered tree directory counters) state) :
    state.WorksOn tree directory := by
  induction h with
  | refl => exact ⟨rfl, rfl⟩
  | tail _ hstep ih => exact worksOn_step ih hstep

/-- A call for a directory gives and leaves behind what the loop over its files does. -/
theorem returned_eq_runDirectory {answer : Except Failure (List Record)} {after : Counters}
    (hsound : state.Sound setup) (hstate : state.WorksOn tree directory)
    (h : Step setup workers state (.returned answer) (.idle after)) :
    answer = (runDirectory setup tree directory).result ∧
      after = (runDirectory setup tree directory).counters := by
  cases h with
  | refuse h =>
      obtain ⟨rfl, rfl⟩ := hstate
      obtain rfl := hsound
      rw [runDirectory, h]
      exact ⟨rfl, rfl⟩
  | @conclude tree directory pool hdone =>
      obtain ⟨rfl, rfl⟩ := hstate
      obtain ⟨paths, hfind, hpool⟩ := hsound
      have hended : (DirectoryRun.ended pool (DirectoryRun.outcomeOf directory pool)).Sound setup
          tree directory := ⟨paths, hfind, hpool, hdone, rfl⟩
      obtain ⟨hresult, hcounters, -⟩ := DirectoryRun.outcome_eq_runDirectory hended
      exact ⟨hresult, hcounters⟩
  | text | file | endPaths => exact hstate.elim

theorem exists_end_of_analysing (hworkers : 1 ≤ workers) (pool : Pool) :
    ∃ last, GoesOn setup workers (.analysing tree directory pool) (.analysing tree directory last) ∧
      last.isDone = true := by
  -- every step leaves one step less to be done
  induction hsteps : pool.remaining using Nat.strong_induction_on generalizing pool with
  | _ steps ih =>
      cases hdone : pool.isDone with
      | true => exact ⟨pool, .refl, hdone⟩
      | false =>
          obtain ⟨i, moved, hmoved⟩ := Pool.exists_step hworkers hdone
          have hless := Pool.advance_remaining (Pool.step_eq_some hmoved).2
          obtain ⟨last, hlast, hlastDone⟩ := ih moved.remaining (by omega) moved rfl
          exact ⟨last, .head (.move hmoved) hlast, hlastDone⟩

/-- A call for a directory can be finished from wherever it has got to. -/
theorem exists_answer (hworkers : 1 ≤ workers) (hstate : state.WorksOn tree directory) :
    ∃ later answer after, GoesOn setup workers state later ∧
      Step setup workers later (.returned answer) (.idle after) := by
  have hanalysing : ∀ pool, ∃ later answer after,
      GoesOn setup workers (.analysing tree directory pool) later ∧
        Step setup workers later (.returned answer) (.idle after) := by
    intro pool
    obtain ⟨last, hlast, hdone⟩ := exists_end_of_analysing hworkers pool
    exact ⟨_, _, _, hlast, .conclude hdone⟩
  have hlooking : ∀ counters, ∃ later answer after,
      GoesOn setup workers (.looking tree directory counters) later ∧
        Step setup workers later (.returned answer) (.idle after) := by
    intro counters
    cases hfind : findSources setup tree directory with
    | error failure => exact ⟨_, _, _, .refl, .refuse hfind⟩
    | ok paths =>
        obtain ⟨later, answer, after, hlater, hreturn⟩ := hanalysing _
        exact ⟨later, answer, after, .head (.find hfind) hlater, hreturn⟩
  cases state with
  | idle counters => exact hstate.elim
  | onPaths pool => exact hstate.elim
  | entered tree directory counters =>
      obtain ⟨rfl, rfl⟩ := hstate
      obtain ⟨later, answer, after, hlater, hreturn⟩ := hlooking {}
      exact ⟨later, answer, after, .head (.reset _ _ _) hlater, hreturn⟩
  | looking tree directory counters =>
      obtain ⟨rfl, rfl⟩ := hstate
      exact hlooking counters
  | analysing tree directory pool =>
      obtain ⟨rfl, rfl⟩ := hstate
      exact hanalysing pool

/-- After any history, what a call for a directory comes to is known beforehand. -/
theorem answers_eq_runDirectory {counters after : Counters} {answer : Except Failure (List Record)}
    (hhistory : Reaches setup workers (.idle {}) (.idle counters))
    (h : Answers setup workers tree directory counters answer after) :
    answer = (runDirectory setup tree directory).result ∧
      after = (runDirectory setup tree directory).counters := by
  obtain ⟨state, hstate, hreturn⟩ := h
  have hentered := hhistory.tail ⟨.silent, .enter tree directory counters⟩
  have hfresh : (Engine.idle {}).Sound setup := trivial
  have hsound := reaches_sound hfresh (hentered.trans hstate.reaches)
  exact returned_eq_runDirectory hsound (worksOn_of_goesOn hstate) hreturn

end Engine

theorem runText_counters_of_error {setup : Setup} {counters : Counters} {text name : String}
    {failure : Failure} (h : (runText setup counters text name).result = .error failure) :
    (runText setup counters text name).counters = counters := by
  unfold runText at h ⊢
  split at h
  · rfl
  · cases h

theorem runFile_counters_of_error {setup : Setup} {tree : Tree} {counters : Counters} {path : Path}
    {failure : Failure} (h : (runFile setup tree counters path).result = .error failure) :
    (runFile setup tree counters path).counters = counters := by
  unfold runFile at h ⊢
  split at h
  · rfl
  · cases h

/-- Whatever an engine has done before, it analyses a directory as a new one does: it comes to an
end, with the same answer and with the same counters. And a text or a file that cannot be analysed
is not counted. -/
theorem directory_call_forgets_history (setup : Setup) (workers : Nat) (hworkers : 1 ≤ workers)
    (counters : Counters) (hhistory : Engine.Reaches setup workers (.idle {}) (.idle counters)) :
    (∀ tree directory answer after,
      Engine.Answers setup workers tree directory counters answer after →
      answer = (runDirectory setup tree directory).result ∧
      after = (runDirectory setup tree directory).counters ∧
      ∀ fresh freshAfter, Engine.Answers setup workers tree directory {} fresh freshAfter →
        answer = fresh ∧ after = freshAfter) ∧
    (∀ tree directory state,
      Engine.GoesOn setup workers (.entered tree directory counters) state →
      ∃ later answer after, Engine.GoesOn setup workers state later ∧
        Engine.Step setup workers later (.returned answer) (.idle after)) ∧
    (∀ text name failure, (runText setup counters text name).result = .error failure →
      (runText setup counters text name).counters = counters) ∧
    (∀ tree path failure, (runFile setup tree counters path).result = .error failure →
      (runFile setup tree counters path).counters = counters) := by
  refine ⟨?_, ?_, fun _ _ _ => runText_counters_of_error, fun _ _ _ => runFile_counters_of_error⟩
  · intro tree directory answer after hanswer
    obtain ⟨hresult, hcounters⟩ := Engine.answers_eq_runDirectory hhistory hanswer
    refine ⟨hresult, hcounters, fun fresh freshAfter hfresh => ?_⟩
    obtain ⟨hfreshResult, hfreshCounters⟩ := Engine.answers_eq_runDirectory .refl hfresh
    exact ⟨hresult.trans hfreshResult.symm, hcounters.trans hfreshCounters.symm⟩
  · intro tree directory state hstate
    exact Engine.exists_answer hworkers (Engine.worksOn_of_goesOn hstate)

/-- A text has been counted and a run over two files was cut short when the directory is
analysed. -/
theorem directory_call_after_stopped_call :
    ∃ counters, Engine.Reaches brittleSetup 2 (.idle {}) (.idle counters) ∧
      counters = ⟨0, 0, 0, 0, 1⟩ ∧
      (∃ answer after,
        Engine.Answers brittleSetup 2 twoFiles ⟨"", ["src"]⟩ counters answer after) ∧
      ∀ answer after, Engine.Answers brittleSetup 2 twoFiles ⟨"", ["src"]⟩ counters answer after →
        after = ⟨2, 1, 1, 0, 1⟩ := by
  have hcounters : (runText brittleSetup {} "a" "A").counters = ⟨0, 0, 0, 0, 1⟩ := by rfl
  have hdirectory : (runDirectory brittleSetup twoFiles ⟨"", ["src"]⟩).counters =
      ⟨2, 1, 1, 0, 1⟩ := by
    rw [runDirectory, findSources_twoFiles]
    simp only [runPaths, List.map_cons, List.map_nil, reportOn_twoFiles_first,
      reportOn_twoFiles_second]
    rfl
  have hhistory : Engine.Reaches brittleSetup 2 (.idle {}) (.idle ⟨0, 0, 0, 0, 1⟩) := by
    have htext := @Engine.Step.text brittleSetup 2 {} "a" "A"
    rw [hcounters] at htext
    refine .head ⟨_, htext⟩ ?_
    refine .head ⟨_, .paths twoFiles _ [⟨"", ["src", "A.java"]⟩, ⟨"", ["src", "B.java"]⟩]⟩ ?_
    exact .single ⟨_, .stopPaths _⟩
  obtain ⟨hsame, hends, -⟩ :=
    directory_call_forgets_history brittleSetup 2 (by decide) _ hhistory
  refine ⟨_, hhistory, rfl, ?_, fun answer after hanswer => ?_⟩
  · obtain ⟨later, answer, after, hlater, hreturn⟩ := hends twoFiles ⟨"", ["src"]⟩ _ .refl
    exact ⟨answer, after, later, hlater, hreturn⟩
  · exact (hsame _ _ _ _ hanswer).2.1.trans hdirectory

end JavaMetrics.Analysis
