import JavaMetrics.Files.Access
import JavaMetrics.Settings.Value

/-!
# Finding source files

The files below a directory whose names end with one of some suffixes. Only real
folders are entered, though the directory itself may be reached by a link; a link
to a file counts as a file. A folder that cannot be entered is passed over.
-/

namespace JavaMetrics.Files

open Settings (Value)

/-- The suffixes of source files. A list of settings may hold something that is no text; the
suffixes before it still count. -/
structure Suffixes where
  texts : List String
  /-- The type of the first item that is no text. -/
  foreign : Option String := none
deriving DecidableEq, Repr

namespace Suffixes

/-- The suffixes that a list of values gives. -/
def ofItems : List Value → Suffixes
  | [] => ⟨[], none⟩
  | .text s :: rest =>
    let suffixes := ofItems rest
    { suffixes with texts := s :: suffixes.texts }
  | other :: _ => ⟨[], some other.typeName⟩

/-- The suffixes that a value gives: the items of a list, the keys of a table, or the single
characters of a text. -/
def ofValue (value : Value) : Except Failure Suffixes :=
  match value with
  | .text s => .ok ⟨s.toList.map fun c => String.ofList [c], none⟩
  | .list items => .ok (ofItems items)
  | .table entries => .ok ⟨entries.map (·.1), none⟩
  | other => .error (.notIterable other.typeName)

/-- Does a name end with one of the suffixes? -/
def accepts (suffixes : Suffixes) (name : String) : Except Failure Bool :=
  if suffixes.texts.any fun suffix => suffix.toList.isSuffixOf name.toList then .ok true
  else
    match suffixes.foreign with
    | some typeName => .error (.suffixNotText typeName)
    | none => .ok false

end Suffixes

/-- Checks that a path leads to a directory. -/
def checkSourceDirectory (tree : Tree) (path : Path) : Except Failure Path :=
  match tree.probe path with
  | .error failure => .error failure
  | .ok none => .error (.fault (.invalidPath path.text "Source directory does not exist"))
  | .ok (some (.folder _)) => .ok path
  | .ok (some _) => .error (.fault (.invalidPath path.text "Source path is not a directory"))

/-- The paths of everything in a folder that is not itself a real folder. -/
def ownLeaves (path : Path) (entries : Folder) : List Path :=
  (entries.filter fun (_, entry) => !entry.isFolder).map fun (name, _) => path.child name

/-- The paths of everything in the real folders below a folder that is not itself a real folder.
`opens` says which folders can be entered. -/
def lowerLeaves (opens : Path → Bool) (path : Path) : Folder → List Path
  | [] => []
  | (name, .folder inner) :: rest =>
    let below :=
      ownLeaves (path.child name) inner ++ lowerLeaves opens (path.child name) inner
    (if opens (path.child name) then below else []) ++ lowerLeaves opens path rest
  | (_, .file _) :: rest => lowerLeaves opens path rest
  | (_, .link _) :: rest => lowerLeaves opens path rest

/-- The paths of everything below a folder that is not itself a real folder. What is in a folder
comes before what is in the folders in it. -/
def leaves (opens : Path → Bool) (path : Path) (entries : Folder) : List Path :=
  ownLeaves path entries ++ lowerLeaves opens path entries

/-- The path by which a folder below a directory is entered. The dot for the working directory is
kept, unlike in the paths that are found. -/
def walked (directory folder : Path) : Path :=
  if directory.root.isEmpty && directory.names.isEmpty then
    { folder with names := "." :: folder.names }
  else folder

/-- Can a folder below a directory be entered? -/
def canEnter (tree : Tree) (directory folder : Path) : Bool :=
  (tree.resolve (walked directory folder) .target).isOk

/-- Is this the path of a source file? Its name has to end with one of the suffixes, and it has to
lead to a file. -/
def isSource (tree : Tree) (suffixes : Suffixes) (leaf : Path) : Except Failure Bool := do
  if ← suffixes.accepts (leaf.names.getLastD "") then
    match ← tree.probe leaf with
    | some (.file _) => return true
    | _ => return false
  else return false

/-- The order of lists of names: name by name, and names by code points. -/
def namesLe : List String → List String → Bool
  | [], _ => true
  | _ :: _, [] => false
  | a :: as, b :: bs => if a == b then namesLe as bs else decide (a < b)

/-- The order of paths. -/
def precedes (a b : Path) : Bool :=
  namesLe a.names b.names

/-- The source files below a directory, in the order of their paths. -/
def discover (tree : Tree) (path : Path) (suffixes : Suffixes) : Except Failure (List Path) := do
  let path ← checkSourceDirectory tree path
  let folder := match tree.find? path with
    | some (.folder entries) => entries
    | _ => []
  let candidates := (leaves (canEnter tree path) path folder).filter fun leaf =>
    !tree.isFolder leaf
  let found ← candidates.filterM (isSource tree suffixes)
  return found.mergeSort precedes

end JavaMetrics.Files
