import JavaMetrics.Analysis.Run
import JavaMetrics.CommandLine.Arguments
import JavaMetrics.Log.Logging
import JavaMetrics.Report.Markup
import JavaMetrics.Settings.Load

/-!
# The command

Loads the settings, analyses a directory, writes the table and prints a summary.
A fault is printed and ends the command; a failure that is not expected ends it
too, but is not printed.
-/

namespace JavaMetrics.CommandLine

open Files (Tree Path)
open Metrics (Record)
open Report (Counters)
open Settings (Config Value)

/-- What the command is given besides its arguments. -/
structure World where
  tree : Tree := {}
  environment : List (String × String) := []
  parser : Analysis.Parser := Analysis.javaParser
  codecs : Text.Codecs := Text.Encoding.codecs
  /-- What every line of the log file begins with. -/
  stamp : String := ""

/-- What the command analyses sources with. -/
def World.setup (world : World) (config : Config) : Analysis.Setup where
  config := config
  parser := world.parser
  codecs := world.codecs

/-- What the command leaves behind. -/
structure Result where
  exitCode : Nat := 0
  /-- The lines that were printed. -/
  output : List String := []
  /-- The lines that were printed as errors. -/
  errors : List String := []
  tree : Tree
  /-- The events that counted. -/
  events : List Log.Event := []
  /-- A failure that the command did not expect. -/
  escaped : Option Failure := none

namespace Result

/-- The result after more has been printed. The text may hold mark-up. -/
def print (result : Result) (markup : String) : Result :=
  match result.escaped with
  | some _ => result
  | none =>
    match Report.plainText markup with
    | .ok text => { result with output := result.output ++ Report.wrap text }
    | .error failure => { result with escaped := some failure, exitCode := 1 }

/-- The result after lines have been printed as they are. -/
def printLines (result : Result) (lines : List String) : Result :=
  match result.escaped with
  | some _ => result
  | none => { result with output := result.output ++ lines }

/-- The result of a command that ends with an error. The message may hold mark-up. -/
def fail (result : Result) (message : String) (exitCode : Nat) : Result :=
  match Report.plainText ("[red]Error:[/red] " ++ message) with
  | .ok text => { result with errors := result.errors ++ Report.unwrapped text, exitCode }
  | .error failure => { result with escaped := some failure, exitCode := 1 }

/-- The result of a command that ends with a failure: a fault is printed, anything else escapes. -/
def failWith (result : Result) (failure : Failure) : Result :=
  match failure with
  | .fault fault => result.fail fault.text fault.exitCode
  | other => { result with escaped := some other, exitCode := 1 }

end Result

/-- The options as settings. -/
def overrides (arguments : Arguments) : List (String × Value) :=
  let path (p : Option Path) : Value := (p.map fun p => Value.text p.text).getD .null
  [("output_file", path arguments.output),
    ("full_format", if arguments.fullFormat then .bool true else .null),
    ("workers", (arguments.workers.map Value.int).getD .null),
    ("log_file", path arguments.logFile),
    ("verbose", .bool arguments.verbose),
    ("quiet", .bool arguments.quiet)]

/-- The path that a setting names. -/
def pathOf (value : Value) : Except Failure Path :=
  match value with
  | .text name => .ok (Path.ofText name)
  | other => .error (.notPath other.shortTypeName)

/-- The layout that the settings ask for. -/
def layoutOf (config : Config) : Report.Layout :=
  if config.fullFormat.isTrue then .full else .short

/-- What is printed before the analysis. -/
def banner (source output : Path) (result : Result) : Result :=
  (((result.print "[bold cyan]PROMISE METRICS[/bold cyan]").print
    s!"Source directory: {source.text}").print s!"Output file: {output.text}").printLines [""]

/-- What is printed after the table has been written. -/
def closing (written : Nat) (output : Path) (records : List Record) (counters : Counters)
    (result : Result) : Result :=
  let result := result.print s!"Exported {written} class metrics to: {output.text}"
  match result.escaped, Report.summarize records with
  | some _, _ => result
  | none, .error failure => result.failWith failure
  | none, .ok figures =>
    (result.printLines (Report.summaryLines figures counters ++ [""])).print
      "[green]Metrics calculation completed successfully![/green]"

/-- Is nothing to be printed but errors? -/
def isQuiet (config : Config) : Bool :=
  match config.verbosity with
  | .text word => word == "quiet"
  | _ => false

/-- Writes the table of a run. -/
def exportRun (config : Config) (output : Path) (run : Analysis.Outcome (List Record))
    (result : Result) : Result :=
  match run.result with
  | .error failure => result.failWith failure
  | .ok records =>
    match Report.write (layoutOf config) records output result.tree with
    | (tree, .error failure) => { result with tree }.failWith failure
    | (tree, .ok written) =>
      let result := { result with tree }
      if isQuiet config then result else closing written output records run.counters result

/-- Analyses a directory and writes the table. -/
def analyze (world : World) (config : Config) (logging : Log.Logging) (source output : Path)
    (result : Result) : Result :=
  let result := if isQuiet config then result else banner source output result
  match result.escaped with
  | some _ => result
  | none =>
    let run := Analysis.runDirectory (world.setup config) result.tree source
    let tree := logging.record world.stamp run.events result.tree
    -- The progress of the run leaves an empty line behind.
    let result := if isQuiet config then result else result.printLines [""]
    exportRun config output run
      { result with tree, events := run.events.filter fun event => logging.accepts event.level }

/-- Sets everything up for a run over a directory, and does it. -/
def execute (world : World) (arguments : Arguments) (source : Path) : Result :=
  let result : Result := { tree := world.tree }
  match Settings.load world.tree world.environment arguments.config (overrides arguments)
      world.codecs with
  | .error failure => result.failWith failure
  | .ok config =>
    match Log.setup config.verbosity.plain config.logFile world.tree with
    | .error failure => result.failWith failure
    | .ok (logging, tree) =>
      let result := { result with tree }
      match pathOf config.outputFile with
      | .error failure => result.failWith failure
      | .ok output => analyze world config logging source output result

/-- How the command is called. -/
def usage : String :=
  "Usage: promise-metrics <source-directory> [output-file] [--full-format]"

/-- Runs the command. Arguments that cannot be understood end it with status one. -/
def run (world : World) (texts : List String) : Result :=
  let result : Result := { tree := world.tree }
  match parseArguments texts with
  | none => { result with exitCode := 1 }
  | some arguments =>
    if arguments.help then result.print usage
    else if arguments.version then
      result.print "[bold cyan]PROMISE Metrics[/bold cyan] version [green]1.0.0[/green]"
    else if arguments.verbose && arguments.quiet then
      result.fail "--verbose and --quiet are mutually exclusive" 1
    else
      match arguments.source with
      | none => (result.fail "Missing argument <source-directory>" 1).print usage
      | some source => execute world arguments source

end JavaMetrics.CommandLine
