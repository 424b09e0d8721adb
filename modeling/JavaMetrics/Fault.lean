import JavaMetrics.Settings.Value

/-!
# Faults

What can go wrong in a run and is told to the user: a message, and details that
are added to it in parentheses. Every fault ends the program with the same
status.
-/

namespace JavaMetrics

/-- What can go wrong. -/
inductive Fault where
  /-- Any fault of the program. -/
  | general (message : String) (details : List (String × String))
  /-- A fault of an analysis. -/
  | analysis (message : String) (details : List (String × String))
  /-- A fault of the settings. -/
  | configuration (message : String) (details : List (String × String))
  /-- A source file cannot be read. -/
  | fileAccess (path reason : String)
  /-- A source has no tree at all. -/
  | parsing (path reason : String)
  /-- The figures of a type cannot be computed. -/
  | metric (type reason : String)
  /-- A run has found no types. -/
  | emptyResult (reason : String)
  /-- The result cannot be written. -/
  | unwritable (path reason : String)
  /-- The source directory is missing or no directory. -/
  | invalidPath (path reason : String)
  /-- A setting has a value that cannot be used. -/
  | invalidSetting (key : String) (value : Settings.Value) (reason : String)
deriving Repr

namespace Fault

/-- What has gone wrong. -/
def message : Fault → String
  | general message _ => message
  | analysis message _ => message
  | configuration message _ => message
  | fileAccess path _ => "Cannot access file: " ++ path
  | parsing path _ => "Failed to parse Java file: " ++ path
  | metric type _ => "Error calculating metrics for " ++ type
  | emptyResult reason => "No metrics calculated: " ++ reason
  | unwritable path _ => "Cannot write metrics to " ++ path
  | invalidPath path _ => "Invalid source directory: " ++ path
  | invalidSetting key value _ => s!"Invalid value for '{key}': {value.shown}"

/-- What else there is to say. -/
def details : Fault → List (String × String)
  | general _ details => details
  | analysis _ details => details
  | configuration _ details => details
  | fileAccess path reason => [("filepath", path), ("reason", reason)]
  | parsing path reason => [("filepath", path), ("reason", reason)]
  | metric type reason => [("type", type), ("reason", reason)]
  | emptyResult reason => [("reason", reason)]
  | unwritable path reason => [("path", path), ("reason", reason)]
  | invalidPath _ reason => [("reason", reason)]
  | invalidSetting _ _ reason => [("reason", reason)]

/-- The message with the details in parentheses. -/
def text (fault : Fault) : String :=
  if fault.details.isEmpty then fault.message
  else
    let pairs := fault.details.map fun (key, value) => key ++ "=" ++ value
    fault.message ++ " (" ++ ", ".intercalate pairs ++ ")"

/-- The status with which the program ends. -/
def exitCode (_ : Fault) : Nat := 1

end Fault

end JavaMetrics
