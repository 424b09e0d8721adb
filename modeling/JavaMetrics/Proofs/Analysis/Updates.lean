import JavaMetrics.Analysis.Run
import Mathlib.Algebra.Ring.Nat

/-!
# Updates add up

Every update adds to counters and reads none of them, so updates can be made in
any order: `applyAll_perm` is what makes the counters of a run independent of the
order in which its files are worked on. What some updates come to is a sum for
each counter, `applyAll_value`.
-/

namespace JavaMetrics.Analysis

open Report (Counters)

theorem Update.apply_comm (counters : Counters) (first second : Update) :
    second.apply (first.apply counters) = first.apply (second.apply counters) := by
  cases first <;> cases second <;> grind [Update.apply]

theorem applyAll_perm {updates others : List Update} (h : updates.Perm others)
    (counters : Counters) : applyAll counters updates = applyAll counters others :=
  h.foldl_eq' (fun first _ second _ counters => Update.apply_comm counters first second)
    counters

theorem applyAll_append (counters : Counters) (first second : List Update) :
    applyAll counters (first ++ second) = applyAll (applyAll counters first) second :=
  List.foldl_append ..

theorem applyAll_cons (counters : Counters) (update : Update) (rest : List Update) :
    applyAll counters (update :: rest) = applyAll (update.apply counters) rest := rfl

/-- The counters that updates change. -/
inductive Counter where
  | analyzed
  | failed
  | problems
  | loc

/-- What a counter stands at. -/
def Counter.value (counters : Counters) : Counter → Int
  | analyzed => counters.filesAnalyzed
  | failed => counters.filesFailed
  | problems => counters.filesWithProblems
  | loc => counters.sourceLoc

/-- What an update adds to a counter. -/
def Update.amount : Counter → Update → Nat
  | .analyzed, .analyzed => 1
  | .failed, .failed => 1
  | .problems, .source _ problematic => if problematic then 1 else 0
  | .loc, .source loc _ => loc
  | _, _ => 0

theorem Update.apply_value (counter : Counter) (counters : Counters) (update : Update) :
    counter.value (update.apply counters) =
      counter.value counters + update.amount counter := by
  cases counter <;> cases update <;>
    simp only [Counter.value, Update.apply, Update.amount, Int.natCast_zero,
      Int.add_zero, Int.natCast_one]
  split <;> rfl

theorem applyAll_value (counter : Counter) (counters : Counters)
    (updates : List Update) :
    counter.value (applyAll counters updates) =
      counter.value counters + ((updates.map (Update.amount counter)).sum : Nat) := by
  induction updates generalizing counters with
  | nil => simp [applyAll]
  | cons update rest ih =>
      rw [applyAll_cons, ih, Update.apply_value, List.map_cons, List.sum_cons]
      omega

/-- The number of files found is set before the first update, and kept. -/
theorem applyAll_filesFound (counters : Counters) (updates : List Update) :
    (applyAll counters updates).filesFound = counters.filesFound := by
  induction updates generalizing counters with
  | nil => rfl
  | cons update rest ih =>
      rw [applyAll_cons, ih]
      cases update <;> rfl

end JavaMetrics.Analysis
