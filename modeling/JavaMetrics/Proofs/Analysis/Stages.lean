import JavaMetrics.Analysis.Run

/-!
# How the analysis of a file can go

A file is read, decoded and parsed before anything is measured, and each of these
stages can fail. `FailsAt` lists them; `analyzeFile_error_iff` says that there are
no others, so measuring never fails, and `analyzeFile_ok_iff` says what is found
otherwise.

A file that fails leaves one mark in the log, an error under the name of the
analysis. Nothing else is logged at that level under that name: errors about
single types go under another one. So the marks in a log tell which files were
left out.
-/

namespace JavaMetrics.Analysis

open Files (Tree Path)
open Java (CompilationUnit)
open Log (Event)
open Metrics (Record)

variable {setup : Setup} {tree : Tree} {path : Path}

/-- The stages at which the analysis of a file can fail, with the failure that
comes of it. -/
inductive FailsAt (setup : Setup) (tree : Tree) (path : Path) : Failure → Prop
  | reading {reason : Failure} (h : tree.read path = .error reason) :
      FailsAt setup tree path (reason.asFault (.fileAccess path.text))
  | decoding {bytes : List UInt8} {failure : Failure} (hread : tree.read path = .ok bytes)
      (h : decodeSource setup bytes = .error failure) :
      FailsAt setup tree path failure
  | refused {text reason : String} (hread : readSource setup tree path = .ok text)
      (h : setup.parser text = .error (.refused reason)) :
      FailsAt setup tree path (.fault (.parsing path.text reason))
  | defect {text message : String} (hread : readSource setup tree path = .ok text)
      (h : setup.parser text = .error (.defect message)) :
      FailsAt setup tree path (.parserDefect message)

theorem readSource_error_iff {failure : Failure} :
    readSource setup tree path = .error failure ↔
      (∃ reason, tree.read path = .error reason ∧
        failure = reason.asFault (.fileAccess path.text)) ∨
      ∃ bytes, tree.read path = .ok bytes ∧
        decodeSource setup bytes = .error failure := by
  unfold readSource
  cases hread : tree.read path with
  | error reason =>
      simp only [Except.error.injEq, reduceCtorEq, false_and, exists_false, or_false]
      constructor
      · rintro rfl; exact ⟨reason, rfl, rfl⟩
      · rintro ⟨_, rfl, rfl⟩; rfl
  | ok bytes => simp

theorem parseUnit_error_iff {parser : Parser} {text name : String} {failure : Failure} :
    parseUnit parser text name = .error failure ↔
      (∃ reason, parser text = .error (.refused reason) ∧
        failure = .fault (.parsing name reason)) ∨
      ∃ message, parser text = .error (.defect message) ∧
        failure = .parserDefect message := by
  unfold parseUnit
  split
  · next root h => simp [h]
  · next reason h => simp [h, eq_comm]
  · next message h => simp [h, eq_comm]

/-- A unit is made of the very text that was read. -/
theorem parseUnit_text {parser : Parser} {text name : String} {unit : CompilationUnit}
    (h : parseUnit parser text name = .ok unit) : unit.text = text := by
  unfold parseUnit at h
  split at h
  · injection h with h
    rw [← h]
    rfl
  · cases h
  · cases h

/-- The result of the analysis of a file, stage by stage. -/
theorem analyzeFile_result :
    (analyzeFile setup tree path).2 =
      match readSource setup tree path with
      | .error failure => .error failure
      | .ok text =>
        match parseUnit setup.parser text path.text with
        | .error failure => .error failure
        | .ok unit => .ok (analyzeUnit unit).2 := by
  unfold analyzeFile analyzeText
  cases readSource setup tree path with
  | error failure => rfl
  | ok text =>
      simp only []
      cases parseUnit setup.parser text path.text <;> rfl

theorem analyzeFile_ok_iff {findings : Findings} :
    (analyzeFile setup tree path).2 = .ok findings ↔
      ∃ text unit, readSource setup tree path = .ok text ∧
        parseUnit setup.parser text path.text = .ok unit ∧
        findings = (analyzeUnit unit).2 := by
  rw [analyzeFile_result]
  constructor
  · intro h
    split at h
    · cases h
    · next text hread =>
        split at h
        · cases h
        · next unit hparse =>
            injection h with h
            exact ⟨text, unit, hread, hparse, h.symm⟩
  · rintro ⟨text, unit, hread, hparse, rfl⟩
    rw [hread]
    simp only []
    rw [hparse]

/-- A file fails at one of the stages before it is measured, or not at all. -/
theorem analyzeFile_error_iff {failure : Failure} :
    (analyzeFile setup tree path).2 = .error failure ↔ FailsAt setup tree path failure := by
  rw [analyzeFile_result]
  constructor
  · intro h
    split at h
    · next reason hread =>
        injection h with h
        subst h
        rcases readSource_error_iff.1 hread with ⟨reason, h, rfl⟩ | ⟨bytes, hbytes, h⟩
        · exact .reading h
        · exact .decoding hbytes h
    · next text hread =>
        split at h
        · next reason hparse =>
            injection h with h
            subst h
            rcases parseUnit_error_iff.1 hparse with ⟨reason, h, rfl⟩ | ⟨message, h, rfl⟩
            · exact .refused hread h
            · exact .defect hread h
        · cases h
  · intro h
    cases h with
    | reading h => rw [readSource_error_iff.2 (.inl ⟨_, h, rfl⟩)]
    | decoding hbytes h => rw [readSource_error_iff.2 (.inr ⟨_, hbytes, h⟩)]
    | refused hread h =>
        rw [hread]
        simp only []
        rw [parseUnit_error_iff.2 (.inl ⟨_, h, rfl⟩)]
    | defect hread h =>
        rw [hread]
        simp only []
        rw [parseUnit_error_iff.2 (.inr ⟨_, h, rfl⟩)]

/-! ## Marks of failure -/

/-- The mark that a file leaves in the log when it is left out. -/
def skipNote (path : Path) (failure : Failure) : Event :=
  ⟨.error, loggerName, s!"Error processing {path.text}: {failure.message}"⟩

/-- Is the event an error of the analysis itself? -/
def isSkipNote (event : Event) : Bool :=
  decide (event.level = .error ∧ event.logger = loggerName)

theorem isSkipNote_skipNote (path : Path) (failure : Failure) :
    isSkipNote (skipNote path failure) = true := by
  simp [isSkipNote, skipNote]

theorem isSkipNote_of_level {event : Event} (h : event.level ≠ .error) :
    isSkipNote event = false := by
  simp [isSkipNote, h]

theorem isSkipNote_of_logger {event : Event} (h : event.logger = metricsLoggerName) :
    isSkipNote event = false := by
  simp [isSkipNote, h, metricsLoggerName, loggerName]

theorem isSkipNote_outcomeEvent (name : String)
    (outcome : Except Metrics.RecordFault Record) :
    isSkipNote (Metrics.outcomeEvent metricsLoggerName name outcome) = false := by
  cases outcome <;> exact isSkipNote_of_logger rfl

theorem isSkipNote_problemEvents {unit : CompilationUnit} {event : Event}
    (h : event ∈ problemEvents unit) : isSkipNote event = false := by
  unfold problemEvents at h
  split at h
  · cases h
  · rcases List.mem_cons.1 h with rfl | h
    · exact isSkipNote_of_level (by simp)
    · obtain ⟨problem, -, rfl⟩ := List.mem_map.1 h
      exact isSkipNote_of_level (by simp)

theorem isSkipNote_analyzeUnit {unit : CompilationUnit} {event : Event}
    (h : event ∈ (analyzeUnit unit).1) : isSkipNote event = false := by
  rcases List.mem_append.1 h with h | h
  · exact isSkipNote_problemEvents h
  · obtain ⟨⟨name, outcome⟩, -, rfl⟩ := List.mem_map.1 h
    exact isSkipNote_outcomeEvent name outcome

/-- What is logged while a file is analysed marks no failure. -/
theorem isSkipNote_analyzeFile {event : Event}
    (h : event ∈ (analyzeFile setup tree path).1) : isSkipNote event = false := by
  unfold analyzeFile analyzeText at h
  split at h
  · obtain rfl := List.mem_singleton.1 h
    exact isSkipNote_of_level (by simp)
  · rcases List.mem_cons.1 h with rfl | h
    · exact isSkipNote_of_level (by simp)
    · split at h
      · cases h
      · exact isSkipNote_analyzeUnit h

/-! ## Reports -/

theorem reportOn_of_ok {findings : Findings}
    (h : (analyzeFile setup tree path).2 = .ok findings) :
    (reportOn setup tree path).records = findings.records ∧
    (reportOn setup tree path).updates = [findings.update, .analyzed] ∧
    (reportOn setup tree path).events.filter isSkipNote = [] := by
  have hnotes := @isSkipNote_analyzeFile setup tree path
  unfold reportOn
  generalize analyzeFile setup tree path = analysis at h hnotes
  obtain ⟨events, result⟩ := analysis
  subst h
  exact ⟨rfl, rfl, List.filter_eq_nil_iff.2 fun event hmem => by simp [hnotes hmem]⟩

theorem reportOn_of_error {failure : Failure}
    (h : (analyzeFile setup tree path).2 = .error failure) :
    (reportOn setup tree path).records = [] ∧
    (reportOn setup tree path).updates = [.failed] ∧
    (reportOn setup tree path).events.filter isSkipNote = [skipNote path failure] := by
  have hnotes := @isSkipNote_analyzeFile setup tree path
  unfold reportOn
  generalize analyzeFile setup tree path = analysis at h hnotes
  obtain ⟨events, result⟩ := analysis
  subst h
  refine ⟨rfl, rfl, ?_⟩
  show (events ++ [skipNote path failure]).filter isSkipNote = _
  rw [List.filter_append, List.filter_eq_nil_iff.2 fun event hmem => by simp [hnotes hmem],
    List.nil_append, List.filter_cons_of_pos (isSkipNote_skipNote path failure),
    List.filter_nil]

theorem reportOn_path : (reportOn setup tree path).path = path := by
  unfold reportOn reportOf
  split <;> rfl

end JavaMetrics.Analysis
