import JavaMetrics.Java.CompilationUnit
import JavaMetrics.Log.Event
import JavaMetrics.Metrics.Complexity
import JavaMetrics.Metrics.Loc
import JavaMetrics.Metrics.Record

/-!
# The records of a unit

Every type of a unit has a record. The complexity of a top-level type is that of
all the methods of the file; a member type has only its own. A type whose figures
do not make a record is left out, and the log says why.
-/

namespace JavaMetrics.Metrics

open Java (CompilationUnit TypeDeclaration Method)

/-- The number of methods of a type itself that are written to be public. -/
def publicMethods (type : TypeDeclaration) : Nat :=
  (type.methods.filter Method.isPublic).length

/-- The number of lines of code of a type, its documentation included in the lines looked at. -/
def typeLoc (unit : CompilationUnit) (type : TypeDeclaration) : Nat :=
  let (start, length) := type.span unit.code
  Loc.countRange unit.lines (unit.lineOf start) (unit.lineOf (start + length - 1))

/-- The methods that the complexity of a type is made of. -/
def contributing (unit : CompilationUnit) (type : TypeDeclaration) : List Method :=
  if type.isTopLevel then unit.fileMethods else type.methods

/-- The record of a type under a name. -/
def compute (unit : CompilationUnit) (name : String) (type : TypeDeclaration) :
    Except RecordFault Record :=
  Record.ofComplexities name ((contributing unit type).map fun m => (complexity m : Int))
    (publicMethods type) (typeLoc unit type)

/-- The names of the types of a unit, each with its record or the reason why it has none. -/
def outcomes (unit : CompilationUnit) : List (String × Except RecordFault Record) :=
  unit.enumerate.map fun (name, type) => (name, compute unit name type)

/-- The records among some outcomes. -/
def recordsOf (outcomes : List (String × Except RecordFault Record)) : List Record :=
  outcomes.filterMap fun (_, outcome) => outcome.toOption

/-- What is logged about a type. -/
def outcomeEvent (logger name : String) (outcome : Except RecordFault Record) : Log.Event :=
  match outcome with
  | .ok _ => ⟨.info, logger, s!"  - {name}"⟩
  | .error fault => ⟨.error, logger, s!"Error calculating metrics for {name}: {fault.message}"⟩

/-- The records of a unit in the order of its types, and what is logged about these. -/
def aggregate (logger : String) (unit : CompilationUnit) : List Record × List Log.Event :=
  let outcomes := outcomes unit
  (recordsOf outcomes, outcomes.map fun (name, outcome) => outcomeEvent logger name outcome)

end JavaMetrics.Metrics
