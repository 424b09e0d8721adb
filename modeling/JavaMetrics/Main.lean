import JavaMetrics.CommandLine.Command
import JavaMetrics.Log.Stamp

/-!
# The program

Takes as much of the file system as the command may need into a tree, runs the
command on it, and carries out what it has done: prints its lines and writes the
files that have changed.
-/

namespace JavaMetrics.Main

open Files (Tree Path Entry Folder)
open Settings (Setting)

/-- The entries of a directory. A link to a file is taken for the file; links to directories and
what cannot be read are left out. -/
partial def readFolder (path : Path) : IO Folder := do
  let mut entries : Folder := []
  for item in ← ((← IO.currentDir) / path.text).readDir do
    let inner := path.child item.fileName
    try
      match (← item.path.symlinkMetadata).type with
      | .dir => entries := (item.fileName, .folder (← readFolder inner)) :: entries
      | _ =>
        let bytes ← IO.FS.readBinFile item.path
        entries := (item.fileName, .file bytes.toList) :: entries
    catch _ => pure ()
  return entries

/-- The tree with what lies on a path: the folders on the way, and the file at its end. -/
def readPath (tree : Tree) (path : Path) : IO Tree := do
  let names := (tree.absolute path).collapse.names
  let mut tree := tree
  for n in List.range (names.length + 1) do
    let path : Path := ⟨"/", names.take n⟩
    let here := (← IO.currentDir) / path.text
    if ← here.isDir then tree := tree.plant path (.folder [])
    else if ← here.pathExists then
      tree := tree.plant path (.file (← IO.FS.readBinFile here).toList)
  return tree

/-- The variables of the environment that give settings. -/
def readEnvironment : IO (List (String × String)) := do
  let found ← Setting.all.mapM fun setting => do
    return (← IO.getEnv setting.variableName).map fun text => (setting.variableName, text)
  return found.filterMap id

/-- The paths that the settings name. -/
def namedPaths (config : Settings.Config) : List Path :=
  [config.outputFile, config.logFile].filterMap fun value => match value with
    | .text name => some (Path.ofText name)
    | _ => none

/-- Writes a file that the command has changed, with the folders above it. -/
def savePath (before after : Tree) (path : Path) : IO Unit := do
  match before.find? path, after.find? path with
  | old, some (.file bytes) =>
    let unchanged := match old with
      | some (.file earlier) => earlier == bytes
      | _ => false
    if !unchanged then
      let base ← IO.currentDir
      IO.FS.createDirAll (base / path.parent.text)
      IO.FS.writeBinFile (base / path.text) ⟨bytes.toArray⟩
  | _, _ => pure ()

/-- The time in front of the lines of the log file, which is made for that if it is not there. -/
def readStamp (tree : Tree) (config : Settings.Config) : IO String := do
  match Log.fileOf tree config.logFile with
  | .ok (some path) =>
    let file := (← IO.currentDir) / path.text
    try
      IO.FS.withFile file .append fun handle => handle.flush
      return Log.stamp (← file.metadata).modified.sec
    catch _ => return ""
  | _ => return ""

/-- The world of the command, and the paths that it may write to. -/
def readWorld (arguments : CommandLine.Arguments) : IO (CommandLine.World × List Path) := do
  let environment ← readEnvironment
  let mut tree : Tree := { base := Path.namesOf (← IO.currentDir).toString }
  tree ← readPath tree ⟨"", []⟩
  for path in Settings.projectFile tree :: arguments.config.toList do
    tree ← readPath tree path
  match Settings.load tree environment arguments.config (CommandLine.overrides arguments) with
  | .error _ => return ({ tree, environment }, [])
  | .ok config =>
    let stamp ← readStamp tree config
    let outputs := namedPaths config
    for path in outputs do
      tree ← readPath tree path
    for source in arguments.source.toList do
      tree ← readPath tree source
      if ← ((← IO.currentDir) / source.text).isDir then
        tree := tree.put (tree.absolute source).collapse.names (.folder (← readFolder source))
    return ({ tree, environment, stamp }, outputs)

end JavaMetrics.Main

open JavaMetrics in
/-- Runs the command. -/
def main (texts : List String) : IO UInt32 := do
  let arguments := (CommandLine.parseArguments texts).getD {}
  let (world, outputs) ← Main.readWorld arguments
  let result := CommandLine.run world texts
  for line in result.output do
    IO.println line
  for event in result.events do
    IO.eprintln s!"{event.level.name} {event.message}"
  for line in result.errors do
    IO.eprintln line
  for failure in result.escaped.toList do
    IO.eprintln failure.message
  for path in outputs do
    Main.savePath world.tree result.tree path
  return result.exitCode.toUInt32
