import JavaMetrics.Analysis.Source
import JavaMetrics.Files.Discovery
import JavaMetrics.Report.Csv
import JavaMetrics.Report.Summary

/-!
# Runs over many files

A run analyses files one after the other, counts what it finds, and puts the
records of all files together, sorted by name. A file that cannot be analysed is
counted and left out.

Every change of the counters is an `Update`, and a file contributes its updates
as a list, so what a run counts is a matter of which updates there are.
-/

namespace JavaMetrics.Analysis

open Files (Tree Path)
open Log (Event)
open Metrics (Record)
open Report (Counters)

/-- A change of the counters of a run. -/
inductive Update where
  /-- A source has been analysed. -/
  | source (loc : Nat) (problematic : Bool)
  /-- A file is done. -/
  | analyzed
  /-- A file was left out. -/
  | failed
deriving DecidableEq, Repr

/-- The counters after a change. -/
def Update.apply (counters : Counters) : Update → Counters
  | source loc problematic =>
    { counters with
      sourceLoc := counters.sourceLoc + loc
      filesWithProblems := counters.filesWithProblems + if problematic then 1 else 0 }
  | analyzed => { counters with filesAnalyzed := counters.filesAnalyzed + 1 }
  | failed => { counters with filesFailed := counters.filesFailed + 1 }

/-- The counters after some changes. -/
def applyAll (counters : Counters) (updates : List Update) : Counters :=
  updates.foldl Update.apply counters

/-- The change that the analysis of a source makes. -/
def Findings.update (findings : Findings) : Update :=
  .source findings.loc findings.problematic

/-- What a run gets from one file. -/
structure FileReport where
  path : Path
  records : List Record
  updates : List Update
  events : List Event

/-- The report on a file from its analysis; a failure is logged, and the file has no records then. -/
def reportOf (path : Path) (analysis : List Event × Except Failure Findings) : FileReport :=
  match analysis with
  | (events, .ok findings) =>
    { path, records := findings.records, updates := [findings.update, .analyzed], events }
  | (events, .error failure) =>
    let note : Event := ⟨.error, loggerName, s!"Error processing {path.text}: {failure.message}"⟩
    { path, records := [], updates := [.failed], events := events ++ [note] }

/-- The report on one file. -/
def reportOn (setup : Setup) (tree : Tree) (path : Path) : FileReport :=
  reportOf path (analyzeFile setup tree path)

/-- What an operation leaves behind. -/
structure Outcome (α : Type) where
  result : Except Failure α
  counters : Counters
  events : List Event := []
  /-- The files that were reported on, with their records. -/
  files : List (Path × List Record) := []
  /-- The number of files that were found, if files were looked for. -/
  discovered : Option Nat := none

/-- The records of some reports, sorted by name. Records of one name keep the order of the reports.
-/
def mergeReports (reports : List FileReport) : List Record :=
  Report.sortRecords (reports.flatMap (·.records))

/-- Analyses a text. -/
def runText (setup : Setup) (counters : Counters) (text name : String) : Outcome (List Record) :=
  match analyzeText setup text name with
  | (events, .error failure) => { result := .error failure, counters, events }
  | (events, .ok findings) =>
    { result := .ok findings.records, counters := findings.update.apply counters, events }

/-- Analyses a file. -/
def runFile (setup : Setup) (tree : Tree) (counters : Counters) (path : Path) :
    Outcome (List Record) :=
  match analyzeFile setup tree path with
  | (events, .error failure) => { result := .error failure, counters, events }
  | (events, .ok findings) =>
    { result := .ok findings.records, counters := findings.update.apply counters, events }

/-- What is left behind when some files have been reported on. -/
def runReports (counters : Counters) (reports : List FileReport) : Outcome (List Record) :=
  { result := .ok (mergeReports reports)
    counters := applyAll counters (reports.flatMap (·.updates))
    events := reports.flatMap (·.events)
    files := reports.map fun report => (report.path, report.records) }

/-- Analyses some files. Files that cannot be analysed are left out. -/
def runPaths (setup : Setup) (tree : Tree) (counters : Counters) (paths : List Path) :
    Outcome (List Record) :=
  runReports counters (paths.map (reportOn setup tree))

/-- The source files below a directory. -/
def findSources (setup : Setup) (tree : Tree) (directory : Path) : Except Failure (List Path) := do
  let suffixes ← Files.Suffixes.ofValue setup.config.extensions
  Files.discover tree directory suffixes

/-- The records of a run over a directory must not be empty. -/
def requireRecords (directory : Path) (found : Nat) (records : List Record) :
    Except Failure (List Record) :=
  if !records.isEmpty then .ok records
  else if found = 0 then
    .error (.fault (.emptyResult s!"no Java files found in {directory.text}"))
  else .error (.fault (.emptyResult s!"no types declared in {found} files"))

/-- Analyses all source files below a directory. The counters start anew. -/
def runDirectory (setup : Setup) (tree : Tree) (directory : Path) : Outcome (List Record) :=
  match findSources setup tree directory with
  | .error failure => { result := .error failure, counters := {} }
  | .ok paths =>
    let found := paths.length
    let run := runPaths setup tree { filesFound := found } paths
    let records := run.result.toOption.getD []
    { run with
      result := requireRecords directory found records
      events :=
        ⟨.info, loggerName, s!"Found {found} source files in {directory.text}"⟩ :: run.events ++
          [⟨.info, loggerName, s!"Total classes found: {records.length}"⟩]
      discovered := some found }

end JavaMetrics.Analysis
