import JavaMetrics.Files.Access
import JavaMetrics.Log.Event
import JavaMetrics.Text.Utf8

/-!
# Where events go

Events from a level up are kept, and can be written to a file, one line each, at
its end. Until logging has been set up, warnings count and nothing is written.
-/

namespace JavaMetrics.Log

open Files (Tree Path)
open Settings (Value)

/-- How events are treated. -/
structure Logging where
  /-- The least level of events that count. -/
  level : Level := .warning
  /-- The file that events are written to. -/
  file : Option Path := none
deriving Repr

/-- The least level for each of the words for how much is logged. -/
def levelOf? (verbosity : String) : Option Level :=
  match verbosity with
  | "quiet" => some .error
  | "normal" => some .warning
  | "verbose" => some .debug
  | _ => none

/-- The log file that a setting names, if it names one. -/
def fileOf (tree : Tree) (setting : Value) : Except Failure (Option Path) :=
  if !setting.isTrue then .ok none
  else
    match setting with
    | .text name => .ok (some (tree.absolute (Path.ofText name)).collapse)
    | other => .error (.notPath other.shortTypeName)

/-- Sets logging up. The log file is made if it is not there. -/
def setup (verbosity : String) (file : Value) (tree : Tree) : Except Failure (Logging × Tree) :=
  match levelOf? verbosity with
  | none => .error (.unknownVerbosity (Text.quoted verbosity))
  | some level => do
    match ← fileOf tree file with
    | none => return (⟨level, none⟩, tree)
    | some path => return (⟨level, some path⟩, ← tree.append path [])

namespace Logging

/-- Does an event of this level count? -/
def accepts (logging : Logging) (level : Level) : Bool :=
  logging.level.number ≤ level.number

/-- The line of an event in the log file, after the time. -/
def line (stamp : String) (event : Event) : String :=
  let name := event.level.name
  let pad := String.ofList (List.replicate (8 - name.length) ' ')
  s!"{stamp}{name}{pad} {event.logger}: {event.message}\n"

/-- The tree after events have been written to the log file. Every line begins with `stamp`. -/
def record (logging : Logging) (stamp : String) (events : List Event) (tree : Tree) : Tree :=
  match logging.file with
  | none => tree
  | some path =>
    let kept := events.filter fun event => logging.accepts event.level
    let text := String.join (kept.map (line stamp))
    (tree.append path (Text.Utf8.encode text.toList)).toOption.getD tree

end Logging

end JavaMetrics.Log
