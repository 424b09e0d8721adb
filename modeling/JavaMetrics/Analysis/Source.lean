import JavaMetrics.Files.Access
import JavaMetrics.Java.Parse
import JavaMetrics.Metrics.Aggregate
import JavaMetrics.Settings.Config

/-!
# Analysing one source

From bytes to records: a file is read, decoded and parsed, and the types of the
tree are measured. Nothing here depends on other files, so files can be analysed
in any order.
-/

namespace JavaMetrics.Analysis

open Files (Tree Path)
open Java (CompilationUnit)
open Log (Event)
open Metrics (Record)
open Settings (Config)

/-- How a parser can fail altogether. A text with errors in it is no reason to. -/
inductive ParserFault where
  /-- It gives up on a text. -/
  | refused (reason : String)
  /-- It has a defect. -/
  | defect (message : String)
deriving DecidableEq, Repr

/-- A parser gives the tree of a text. -/
abbrev Parser := String → Except ParserFault Node

/-- The parser of the library. -/
def javaParser : Parser := fun text => .ok (Java.tree text)

/-- What an analysis is done with. -/
structure Setup where
  config : Config := {}
  parser : Parser := javaParser
  codecs : Text.Codecs := Text.Encoding.codecs

/-- The name under which events of the analysis are logged. -/
def loggerName : String := "promise_metrics.analysis.engine"

/-- The name under which events about single types are logged. -/
def metricsLoggerName : String := "promise_metrics.metrics"

/-- The name of a source that is no file. -/
def defaultName : String := "<string>"

/-- The unit of a text. -/
def parseUnit (parser : Parser) (text name : String) : Except Failure CompilationUnit :=
  match parser text with
  | .ok root => .ok (.ofTree name text root)
  | .error (.refused reason) => .error (.fault (.parsing name reason))
  | .error (.defect message) => .error (.parserDefect message)

/-- What is logged about the problems of a unit. -/
def problemEvents (unit : CompilationUnit) : List Event :=
  match unit.problems with
  | [] => []
  | problems =>
    ⟨.warning, loggerName, s!"Parse problems in {unit.path}"⟩ ::
      problems.map fun problem => ⟨.warning, loggerName, s!"  {problem.text}"⟩

/-- What is found in one source. -/
structure Findings where
  records : List Record
  /-- The number of lines of code of the whole source. -/
  loc : Nat
  /-- Is there something wrong with the source? -/
  problematic : Bool
deriving Repr

/-- The analysis of a unit. -/
def analyzeUnit (unit : CompilationUnit) : List Event × Findings :=
  let (records, events) := Metrics.aggregate metricsLoggerName unit
  (problemEvents unit ++ events,
    { records, loc := Metrics.Loc.countText unit.text, problematic := !unit.problems.isEmpty })

/-- The analysis of a text. -/
def analyzeText (setup : Setup) (text name : String) : List Event × Except Failure Findings :=
  match parseUnit setup.parser text name with
  | .error failure => ([], .error failure)
  | .ok unit =>
    let (events, findings) := analyzeUnit unit
    (events, .ok findings)

/-- The text of some bytes in the encoding of the settings. Nothing is asked of the encoding where
there is nothing to read. -/
def decodeSource (setup : Setup) (bytes : List UInt8) : Except Failure String :=
  match Settings.encodingOf setup.codecs setup.config.encoding with
  | .error failure => .error failure
  | .ok codec? =>
    if bytes.isEmpty then .ok ""
    else
      match codec? with
      | none => .error (.unknownEncoding setup.config.encoding.plain)
      | some codec =>
        match codec.decode bytes with
        | .ok cs => .ok (String.ofList cs)
        | .error message => .error (.undecodable message)

/-- The text of a file. -/
def readSource (setup : Setup) (tree : Tree) (path : Path) : Except Failure String :=
  match tree.read path with
  | .error failure => .error (failure.asFault (.fileAccess path.text))
  | .ok bytes => decodeSource setup bytes

/-- The analysis of a file. -/
def analyzeFile (setup : Setup) (tree : Tree) (path : Path) : List Event × Except Failure Findings :=
  let start : Event := ⟨.debug, loggerName, s!"Processing: {path.text}"⟩
  match readSource setup tree path with
  | .error failure => ([start], .error failure)
  | .ok text =>
    let (events, outcome) := analyzeText setup text path.text
    (start :: events, outcome)

end JavaMetrics.Analysis
