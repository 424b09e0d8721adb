/-!
# Log events

What a run has to say besides its result: events with a level, told under the
name of the part of the program that they come from.
-/

namespace JavaMetrics.Log

/-- How much an event matters. -/
inductive Level where
  | debug
  | info
  | warning
  | error
  | critical
deriving DecidableEq, Repr

namespace Level

/-- The name of a level. -/
def name : Level → String
  | .debug => "DEBUG"
  | .info => "INFO"
  | .warning => "WARNING"
  | .error => "ERROR"
  | .critical => "CRITICAL"

/-- The number by which levels are compared. -/
def number : Level → Nat
  | .debug => 10
  | .info => 20
  | .warning => 30
  | .error => 40
  | .critical => 50

end Level

/-- One event. -/
structure Event where
  level : Level
  /-- The name of the part of the program that it comes from. -/
  logger : String
  message : String
deriving DecidableEq, Repr

/-- The name that all others are below. -/
def rootName : String := "promise_metrics"

/-- The full name of a part of the program: the root for no name, and below the root otherwise. -/
def loggerName (name : Option String) : String :=
  match name with
  | none => rootName
  | some name =>
    if name.isEmpty then rootName
    else if name == rootName || (rootName ++ ".").isPrefixOf name then name
    else rootName ++ "." ++ name

end JavaMetrics.Log
