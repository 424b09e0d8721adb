import JavaMetrics.Failure
import JavaMetrics.Number.Fixed
import JavaMetrics.Number.PairwiseSum

/-!
# The summary of a run

A few figures over all records, and the counts of the files that they come from,
printed as a table. Figures are kept in 64 bits: a larger count is refused, and a
larger total wraps around.
-/

namespace JavaMetrics.Report

open Metrics (Record)
open Number (Binary64)

/-- What a run has counted. -/
structure Counters where
  filesFound : Int := 0
  filesAnalyzed : Int := 0
  filesFailed : Int := 0
  filesWithProblems : Int := 0
  sourceLoc : Int := 0
deriving DecidableEq, Repr

/-- The figures over all records. -/
structure Figures where
  classes : Nat := 0
  averageNpm : Binary64 := Binary64.zero
  averageLoc : Binary64 := Binary64.zero
  totalLoc : Int := 0
deriving DecidableEq, Repr

/-- The mean of counts. -/
def average (counts : List Nat) : Binary64 :=
  (Binary64.ofRatio? false (Number.pairwiseSum counts) counts.length).getD Binary64.zero

/-- Does a count fit into 64 bits with a sign? -/
def fits (count : Int) : Bool :=
  -9223372036854775808 ≤ count && count < 9223372036854775808

/-- The figures over some records. -/
def summarize (records : List Record) : Except Failure Figures :=
  if records.isEmpty then .ok {}
  else if records.all fun record => fits record.npm && fits record.loc then
    .ok {
      classes := records.length
      averageNpm := average (records.map (·.npm.toNat))
      averageLoc := average (records.map (·.loc.toNat))
      totalLoc := (Record.total (records.map Record.loc)).bmod 18446744073709551616 }
  else .error .countTooLarge

/-! ## The table -/

/-- The least width of the first column. -/
def labelWidth : Nat := 24

/-- The rows of the summary: a label and a value each. -/
def summaryRows (figures : Figures) (counters : Counters) : List (String × String) :=
  [("Total classes analyzed", toString figures.classes),
    ("Average NPM", figures.averageNpm.twoPlaces),
    ("Average LOC", figures.averageLoc.twoPlaces),
    ("Total LOC", toString figures.totalLoc),
    ("Files analyzed", s!"{counters.filesAnalyzed}/{counters.filesFound}")] ++
  (if counters.filesFailed = 0 then [] else [("Files skipped", toString counters.filesFailed)]) ++
  (if counters.filesWithProblems = 0 then []
    else [("Files with parse problems", toString counters.filesWithProblems)]) ++
  [("Source LOC (all files)", toString counters.sourceLoc)]

/-- The characters that draw a horizontal line of a table: left end, line, crossing, right end. -/
structure Rule where
  left : Char
  stroke : Char
  crossing : Char
  right : Char

/-- A horizontal line over two columns. -/
def Rule.draw (rule : Rule) (first second : Nat) : String :=
  String.ofList (rule.left :: List.replicate (first + 2) rule.stroke ++
    rule.crossing :: List.replicate (second + 2) rule.stroke ++ [rule.right])

/-- Blanks that fill a text up to a width. -/
def padding (width : Nat) (text : String) : String :=
  String.ofList (List.replicate (width - text.length) ' ')

/-- A row over two columns, the first aligned to the left and the second to the right. -/
def tableRow (bar : Char) (first second : Nat) (cells : String × String) : String :=
  let edge := String.ofList [bar]
  edge ++ " " ++ cells.1 ++ padding first cells.1 ++ " " ++ edge ++ " " ++
    padding second cells.2 ++ cells.2 ++ " " ++ edge

/-- A table of two columns with a header. -/
def drawTable (header : String × String) (rows : List (String × String)) : List String :=
  let cells := header :: rows
  let first := cells.foldl (fun width (label, _) => max width label.length) labelWidth
  let second := cells.foldl (fun width (_, value) => max width value.length) 0
  [Rule.draw ⟨'┏', '━', '┳', '┓'⟩ first second, tableRow '┃' first second header,
    Rule.draw ⟨'┡', '━', '╇', '┩'⟩ first second] ++
  rows.map (tableRow '│' first second) ++
  [Rule.draw ⟨'└', '─', '┴', '┘'⟩ first second]

/-- The printed lines of a summary. -/
def summaryLines (figures : Figures) (counters : Counters) : List String :=
  "" :: "METRICS SUMMARY" :: drawTable ("Metric", "Value") (summaryRows figures counters)

end JavaMetrics.Report
