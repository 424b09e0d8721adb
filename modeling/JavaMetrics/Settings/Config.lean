import JavaMetrics.Settings.Environment
import JavaMetrics.Text.Encoding

/-!
# The settings of a run

Seven settings with their defaults. Settings are made from a table that gives
some of them; a key that is none of the seven is refused before anything else is
looked at. The values are then checked one after the other, and a check looks
only at what it needs: a value of a wrong type that passes is kept as it is. An
encoding is checked by writing the empty text in it.
-/

namespace JavaMetrics.Settings

open Text (Codec Codecs)

/-- The settings by name. -/
inductive Setting where
  | outputFile
  | fullFormat
  | workers
  | extensions
  | encoding
  | verbosity
  | logFile
deriving DecidableEq, Repr

namespace Setting

/-- The settings in their order. -/
def all : List Setting :=
  [.outputFile, .fullFormat, .workers, .extensions, .encoding, .verbosity, .logFile]

/-- The key of a setting in a table. -/
def key : Setting → String
  | outputFile => "output_file"
  | fullFormat => "full_format"
  | workers => "workers"
  | extensions => "extensions"
  | encoding => "encoding"
  | verbosity => "verbosity"
  | logFile => "log_file"

/-- The variable of the environment that gives a setting. -/
def variableName (setting : Setting) : String :=
  "PROMISE_METRICS_" ++ String.ofList (setting.key.toList.map Char.toUpper)

/-- How the variable of a setting is read. -/
def kind : Setting → Kind
  | outputFile => .text
  | fullFormat => .boolean
  | workers => .integer
  | extensions => .list
  | encoding => .text
  | verbosity => .choice
  | logFile => .text

/-- The value of a setting that is not given. -/
def default : Setting → Value
  | outputFile => .text "output/metrics.csv"
  | fullFormat => .bool false
  | workers => .null
  | extensions => .list [.text ".java"]
  | encoding => .text "utf-8"
  | verbosity => .text "normal"
  | logFile => .null

end Setting

/-- The settings of a run. -/
structure Config where
  /-- Where the result is written. -/
  outputFile : Value := Setting.outputFile.default
  /-- Are all the columns written? -/
  fullFormat : Value := Setting.fullFormat.default
  /-- The number of workers. -/
  workers : Value := Setting.workers.default
  /-- The suffixes of source files. -/
  extensions : Value := Setting.extensions.default
  /-- The encoding of source files. -/
  encoding : Value := Setting.encoding.default
  /-- How much is logged. -/
  verbosity : Value := Setting.verbosity.default
  /-- Where the log is written. -/
  logFile : Value := Setting.logFile.default
deriving Repr

/-- The words for how much is logged. -/
def verbosities : List String := ["quiet", "normal", "verbose"]

/-- Is the value below one? Only numbers can be compared. -/
def belowOne : Value → Except Failure Bool
  | .bool b => .ok !b
  | .int i => .ok (decide (i < 1))
  | .float x =>
    .ok (!x.isNaN && (x.negative || decide (x.magnitude < 0x3FF0000000000000)))
  | value => .error (.incomparable value.typeName)

/-- The encoding that a value names, if it is a known one. -/
def encodingOf (codecs : Codecs) (value : Value) : Except Failure (Option Codec) :=
  match value with
  | .text name =>
    if name.toList.contains (Char.ofNat 0) then .error .nullInEncoding else .ok (codecs name)
  | .null => .error (.encodingNotText "None")
  | value => .error (.encodingNotText value.typeName)

namespace Config

/-- A setting has a value that cannot be used. The fault tells the value, so it takes one that can be
shown. -/
def invalid {α : Type} (setting : Setting) (value : Value) (reason : String) : Except Failure α :=
  if value.hasLongInteger then .error .longInteger
  else .error (.fault (.invalidSetting setting.key value reason))

/-- Checks the number of workers. -/
def checkWorkers (workers : Value) : Except Failure Unit :=
  match workers with
  | .null => .ok ()
  | value => do
    if ← belowOne value then invalid .workers value "must be at least 1" else return ()

/-- Checks how much is logged. -/
def checkVerbosity (verbosity : Value) : Except Failure Unit :=
  let reason := "expected one of " ++ ", ".intercalate verbosities
  match verbosity with
  | .text word => if verbosities.contains word then .ok () else invalid .verbosity verbosity reason
  | _ => invalid .verbosity verbosity reason

/-- Checks the encoding. -/
def checkEncoding (codecs : Codecs) (encoding : Value) : Except Failure Unit := do
  match ← encodingOf codecs encoding with
  | none => invalid .encoding encoding "unknown codec"
  | some codec =>
    match codec.defect? with
    | some message => throw (.unusableEncoding message)
    | none => return ()

/-- Checks the settings one after the other. -/
def check (config : Config) (codecs : Codecs := Text.Encoding.codecs) :
    Except Failure Config := do
  if !config.outputFile.isTrue then invalid .outputFile config.outputFile "must not be empty"
  checkWorkers config.workers
  if !config.extensions.isTrue then
    invalid .extensions config.extensions "must list at least one suffix"
  checkVerbosity config.verbosity
  checkEncoding codecs config.encoding
  return config

/-- The value of a setting in a table, or its default. -/
def valueIn (table : List (String × Value)) (setting : Setting) : Value :=
  (table.lookup setting.key).getD setting.default

/-- The first key of a table that is no setting. -/
def unknownKey? (table : List (String × Value)) : Option String :=
  (table.map (·.1)).find? fun key => !(Setting.all.map Setting.key).contains key

/-- The settings that a table gives, the others by default. -/
def ofTable (table : List (String × Value)) (codecs : Codecs := Text.Encoding.codecs) :
    Except Failure Config :=
  match unknownKey? table with
  | some key => .error (.unknownSetting key)
  | none =>
    check
      { outputFile := valueIn table .outputFile
        fullFormat := valueIn table .fullFormat
        workers := valueIn table .workers
        extensions := valueIn table .extensions
        encoding := valueIn table .encoding
        verbosity := valueIn table .verbosity
        logFile := valueIn table .logFile }
      codecs

/-- The number of workers, where none means one. -/
def effectiveWorkers (config : Config) : Value :=
  if config.workers.isTrue then config.workers else .int 1

end Config

end JavaMetrics.Settings
