import JavaMetrics.Failure

/-!
# Reading and writing

Operations on a tree that name the path at fault when they are refused.
-/

namespace JavaMetrics.Files.Tree

/-- The bytes of the file that a path leads to. -/
def read (tree : Tree) (path : Path) : Except Failure (List UInt8) :=
  match tree.resolve path .target with
  | .error refusal => .error (.refused refusal path.text)
  | .ok place =>
    match place.entry with
    | some (.file bytes) => .ok bytes
    | some _ => .error (.refused .isDirectory path.text)
    | none => .error (.refused .notFound path.text)

/-- What a path leads to, if it leads to anything. To ask is refused only where it cannot be said. -/
def probe (tree : Tree) (path : Path) : Except Failure (Option Entry) :=
  match tree.resolve path .target with
  | .ok place => .ok place.entry
  | .error refusal =>
    if refusal.isAbsence then .ok none else .error (.refused refusal path.text)

/-- The tree after the file that a path leads to has been given new bytes. They are computed from
the old ones; a file that is not there is made. -/
def update (tree : Tree) (path : Path) (change : List UInt8 → List UInt8) : Except Failure Tree :=
  match tree.resolve path .file with
  | .error refusal => .error (.refused refusal path.text)
  | .ok place =>
    match place.entry with
    | some (.file bytes) => .ok (tree.put place.names (.file (change bytes)))
    | some _ => .error (.refused .isDirectory path.text)
    | none => .ok (tree.put place.names (.file (change [])))

/-- The tree after a file has been written. -/
def write (tree : Tree) (path : Path) (bytes : List UInt8) : Except Failure Tree :=
  tree.update path fun _ => bytes

/-- The tree after bytes have been added to the end of a file. -/
def append (tree : Tree) (path : Path) (bytes : List UInt8) : Except Failure Tree :=
  tree.update path (· ++ bytes)

/-- The tree with one more folder. Nothing may be in its place, and the folder above it must be
there. -/
def makeFolder (tree : Tree) (path : Path) : Except Refusal Tree :=
  match tree.resolve path .itself with
  | .error refusal => .error refusal
  | .ok place =>
    match place.entry with
    | some _ => .error .alreadyThere
    | none => .ok (tree.put place.names (.folder []))

/-- What comes of the refusal to make a folder. It does not matter if there is a folder already. -/
def folderFailure (tree : Tree) (path : Path) (refusal : Refusal) : Option Failure :=
  match tree.probe path with
  | .error failure => some failure
  | .ok (some (.folder _)) => none
  | .ok _ => some (.refused refusal path.text)

/-- The tree with a folder in it, which may be there already, and the failure if it cannot be made.
-/
def ensureFolder (tree : Tree) (path : Path) : Tree × Option Failure :=
  match tree.makeFolder path with
  | .ok made => (made, none)
  | .error .notFound => (tree, some (.refused .notFound path.text))
  | .error refusal => (tree, tree.folderFailure path refusal)

/-- The tree with all the folders of a path in it, as far as they can be made, and the failure if
one of them cannot. The names are those of the path, latest first. When a folder above is missing it
is made first, and it stays even if the next one cannot be made. -/
def ensureFoldersFrom (root : String) : List String → Tree → Tree × Option Failure
  | [], tree => tree.ensureFolder ⟨root, []⟩
  | name :: above, tree =>
    let path : Path := ⟨root, (name :: above).reverse⟩
    match tree.makeFolder path with
    | .error .notFound =>
      match ensureFoldersFrom root above tree with
      | (tree, some failure) => (tree, some failure)
      | (tree, none) => tree.ensureFolder path
    | _ => tree.ensureFolder path

/-- The tree with all the folders of a path in it, as far as they can be made. -/
def ensureFolders (tree : Tree) (path : Path) : Tree × Option Failure :=
  ensureFoldersFrom path.root path.names.reverse tree

/-- The tree with an entry at a path, for which the folders above are made. Bytes go to the file that
the path leads to; a request that is refused changes nothing. -/
def plant (tree : Tree) (path : Path) (entry : Entry) : Tree :=
  match tree.ensureFolders path.parent with
  | (_, some _) => tree
  | (prepared, none) =>
    match entry with
    | .file bytes => (prepared.write path bytes).toOption.getD tree
    | .folder _ =>
      match prepared.ensureFolders path with
      | (planted, none) => planted
      | (_, some _) => tree
    | .link target =>
      match prepared.resolve path .itself with
      | .ok place => prepared.put place.names (.link target)
      | .error _ => tree

/-- The tree without what is at a path. -/
def remove (tree : Tree) (path : Path) : Tree :=
  match tree.resolve path .itself with
  | .ok place => { tree with top := Entry.erase place.names tree.top }
  | .error _ => tree

/-- The tree with some entries at their paths. -/
def plantAll (tree : Tree) (entries : List (Path × Entry)) : Tree :=
  entries.foldl (fun tree (path, entry) => tree.plant path entry) tree

end JavaMetrics.Files.Tree
