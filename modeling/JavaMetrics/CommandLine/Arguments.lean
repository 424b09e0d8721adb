import JavaMetrics.Files.Path
import JavaMetrics.Text.Digit

/-!
# The arguments of the command

Options may stand before, between and after the two paths, up to a double dash.
A long option takes its value from the next argument or after an equals sign;
short options can be written together, and the last of them may have its value
right behind it. Of an option given twice the last value counts.
-/

namespace JavaMetrics.CommandLine

open Files (Path)

/-- The options of the command. -/
inductive Choice where
  | fullFormat
  | workers
  | config
  | verbose
  | quiet
  | logFile
  | version
  | help
deriving DecidableEq, Repr

namespace Choice

/-- The options by their long names. -/
def longNames : List (String × Choice) := [
  ("--full-format", .fullFormat), ("--workers", .workers), ("--config", .config),
  ("--verbose", .verbose), ("--quiet", .quiet), ("--log-file", .logFile),
  ("--version", .version), ("--help", .help)]

/-- The options by their short names. -/
def shortNames : List (Char × Choice) := [
  ('w', .workers), ('c', .config), ('v', .verbose), ('q', .quiet)]

/-- Does the option have a value? -/
def takesValue : Choice → Bool
  | workers => true
  | config => true
  | logFile => true
  | _ => false

end Choice

/-- The arguments as they are written: the paths, and the options with their values in order. -/
structure Written where
  /-- The paths, latest first. -/
  paths : List String := []
  /-- The options, latest first. -/
  options : List (Choice × String) := []

/-- The arguments with one more option. -/
def Written.add (written : Written) (choice : Choice) (value : String) : Written :=
  { written with options := (choice, value) :: written.options }

/-- Reads a long option, whose value may be the first of the arguments that follow. -/
def readLong (written : Written) (choice : Choice) (value : Option String) (rest : List String) :
    Option (Written × List String) :=
  if choice.takesValue then
    match value, rest with
    | some value, rest => some (written.add choice value, rest)
    | none, value :: rest => some (written.add choice value, rest)
    | none, [] => none
  else
    match value with
    | some _ => none
    | none => some (written.add choice "", rest)

/-- Reads short options that are written together. -/
def readShort (written : Written) : List Char → List String → Option (Written × List String)
  | [], rest => some (written, rest)
  | c :: cs, rest =>
    match Choice.shortNames.lookup c with
    | none => none
    | some choice =>
      if choice.takesValue then
        if cs.isEmpty then readLong written choice none rest
        else some (written.add choice (String.ofList cs), rest)
      else readShort (written.add choice "") cs rest

/-- The name of an option, and the value after an equals sign if there is one. -/
def splitOption (argument : String) : String × Option String :=
  let cs := argument.toList
  let name := cs.takeWhile (· != '=')
  match cs.dropWhile (· != '=') with
  | _ :: value => (String.ofList name, some (String.ofList value))
  | [] => (argument, none)

/-- Reads the arguments one after the other. Nothing when one of them cannot be understood. The first
argument bounds their number. -/
def readArguments : Nat → Written → List String → Option Written
  | 0, written, _ => some written
  | _, written, [] => some written
  | steps + 1, written, argument :: rest =>
    if argument == "--" then some { written with paths := rest.reverse ++ written.paths }
    else
      match argument.toList with
      | '-' :: c :: cs =>
        let (name, value) := splitOption argument
        let read := match Choice.longNames.lookup name with
          | some choice => readLong written choice value rest
          | none => if c == '-' then none else readShort written (c :: cs) rest
        read.bind fun (written, rest) => readArguments steps written rest
      | _ => readArguments steps { written with paths := argument :: written.paths } rest

/-- The arguments of the command. -/
structure Arguments where
  source : Option Path := none
  output : Option Path := none
  fullFormat : Bool := false
  workers : Option Int := none
  config : Option Path := none
  verbose : Bool := false
  quiet : Bool := false
  logFile : Option Path := none
  version : Bool := false
  help : Bool := false
deriving Repr

/-- The arguments as they are meant. Nothing when there are too many paths, or when a number is
none. -/
def Written.arguments? (written : Written) : Option Arguments :=
  let isGiven (choice : Choice) : Bool := (written.options.lookup choice).isSome
  let path (choice : Choice) : Option Path := (written.options.lookup choice).map Path.ofText
  let arguments (source output : Option String) (workers : Option Int) : Arguments := {
    source := source.map Path.ofText
    output := output.map Path.ofText
    workers
    config := path .config
    logFile := path .logFile
    fullFormat := isGiven .fullFormat
    verbose := isGiven .verbose
    quiet := isGiven .quiet
    version := isGiven .version
    help := isGiven .help }
  let workers : Option (Option Int) := match written.options.lookup .workers with
    | none => some none
    | some text =>
      match Text.readInteger text.toList with
      | .ok i => some (some i)
      | .error _ => none
  match written.paths.reverse with
  | [] => workers.map (arguments none none)
  | [source] => workers.map (arguments (some source) none)
  | [source, output] => workers.map (arguments (some source) (some output))
  | _ => none

/-- The arguments that a list of texts gives. -/
def parseArguments (texts : List String) : Option Arguments :=
  (readArguments texts.length {} texts).bind Written.arguments?

end JavaMetrics.CommandLine
