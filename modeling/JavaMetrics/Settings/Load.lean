import JavaMetrics.Files.Access
import JavaMetrics.Settings.Config
import JavaMetrics.Settings.Toml.Document
import JavaMetrics.Text.Utf8

/-!
# Loading the settings

Settings come in layers, each of which overrides those before it: the defaults,
the project's file, a file that was asked for, the environment, and the options
of the command line. The values are checked only after all layers have been put
together, so a value that another one overrides need not be a good one.
-/

namespace JavaMetrics.Settings

open Files (Tree Path)

/-- The file with the settings of a project, in the working directory. -/
def projectFile (tree : Tree) : Path :=
  tree.absolute (Path.ofText "promise-metrics.toml")

/-- The table in a settings file to which settings may be confined. -/
def sectionKey : String := "promise-metrics"

/-- The settings that a document gives: those of its section if it has one, else all of it. -/
def sectionOf (table : List (String × Value)) : List (String × Value) :=
  match table.lookup sectionKey with
  | some (.table entries) => entries
  | _ => table

/-- The settings that a file gives. -/
def loadFile (tree : Tree) (path : Path) : Except Failure (List (String × Value)) :=
  match tree.read path with
  | .error failure =>
    .error (.fault (.configuration
      s!"Cannot read config file '{path.text}': {failure.message}" []))
  | .ok bytes =>
    match (Text.Utf8.decodeStrict? bytes).bind Toml.parse? with
    | some table => .ok (sectionOf table)
    | none => .error (.fault (.configuration s!"Invalid config file '{path.text}': " []))

/-- The settings that a file gives if it is there, and else what stands for them. -/
def loadIfThere (tree : Tree) (path : Path) (absent : Except Failure (List (String × Value))) :
    Except Failure (List (String × Value)) :=
  match tree.probe path with
  | .error failure => .error failure
  | .ok none => absent
  | .ok (some _) => loadFile tree path

/-- The settings that the project's file gives, if there is one. -/
def projectLayer (tree : Tree) : Except Failure (List (String × Value)) :=
  loadIfThere tree (projectFile tree) (.ok [])

/-- The settings that a file gives that was asked for. -/
def explicitLayer (tree : Tree) (file : Option Path) : Except Failure (List (String × Value)) :=
  match file with
  | none => .ok []
  | some path =>
    loadIfThere tree path
      (.error (.fault (.configuration s!"Config file not found: {path.text}" [])))

/-- The setting that the environment gives for a name, if any. -/
def variableOf (environment : List (String × String)) (setting : Setting) :
    Except Failure (List (String × Value)) :=
  match environment.lookup setting.variableName with
  | none => .ok []
  | some text =>
    match readVariable setting.kind text with
    | .ok (some value) => .ok [(setting.key, value)]
    | .ok none => .ok []
    | .error failure =>
      .error (.fault (.invalidSetting setting.key (.text text)
        s!"{setting.variableName}: {failure.message}"))

/-- The settings that the environment gives. -/
def environmentLayer (environment : List (String × String)) :
    Except Failure (List (String × Value)) := do
  let found ← Setting.all.mapM (variableOf environment)
  return found.flatten

/-- Is a flag among the options and set? -/
def isFlagged (options : List (String × Value)) (flag : String) : Bool :=
  ((options.lookup flag).map Value.isTrue).getD false

/-- The options as settings: the two flags stand for how much is logged, and options without a
value do not count. -/
def optionLayer (options : List (String × Value)) : List (String × Value) :=
  let others := options.filter fun (key, _) => key != "verbose" && key != "quiet"
  let louder :=
    if isFlagged options "verbose" then assign Setting.verbosity.key (.text "verbose") others
    else others
  let all :=
    if isFlagged options "quiet" then assign Setting.verbosity.key (.text "quiet") louder
    else louder
  all.filter fun (_, value) => match value with
    | .null => false
    | _ => true

/-- A setting of a wrong type or name is a fault of the settings. -/
def asFault (failure : Failure) : Failure :=
  match failure with
  | .unknownSetting _ | .incomparable _ | .encodingNotText _ =>
    .fault (.configuration s!"Invalid configuration: {failure.message}" [])
  | other => other

/-- The settings of a run. -/
def load (tree : Tree) (environment : List (String × String)) (file : Option Path)
    (options : List (String × Value)) (codecs : Text.Codecs := Text.Encoding.codecs) :
    Except Failure Config := do
  let project ← projectLayer tree
  let explicit ← explicitLayer tree file
  let given ← environmentLayer environment
  let merged := merge (merge (merge project explicit) given) (optionLayer options)
  (Config.ofTable merged codecs).mapError asFault

end JavaMetrics.Settings
