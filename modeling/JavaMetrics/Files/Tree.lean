import JavaMetrics.Files.Path

/-!
# File trees

What is stored: files, links and folders. A place in a tree is a list of names
from the top, all of them names of real folders but the last, which may name
anything or nothing. `Tree.resolve` finds the place of a path: links on the way
are followed, and double dots go up from where the links have led.

Of permissions there is only that to search a folder, since without it no path
leads any further. What may be read or written is not told, nor how much space
there is, nor how much stack it takes to go down into folders.
-/

namespace JavaMetrics.Files

/-- Something that is stored. -/
inductive Entry where
  | file (bytes : List UInt8)
  | link (target : String)
  | folder (entries : List (String × Entry))
deriving Repr

/-- The entries of a folder. -/
abbrev Folder := List (String × Entry)

/-- A tree of folders and the place of the working directory in it. -/
structure Tree where
  top : Folder := []
  base : List String := []
  /-- The places of the folders that may not be searched. -/
  closed : List (List String) := []
deriving Repr

/-- Why a request to a tree is refused. -/
inductive Refusal where
  | notFound
  /-- A folder on the way may not be searched. -/
  | denied
  | alreadyThere
  | notDirectory
  | isDirectory
  | nameTooLong
  | tooManyLinks
  /-- There is a null character in the path, so the system is not even asked. -/
  | nullInPath
deriving DecidableEq, Repr

namespace Refusal

/-- The number that the system gives a refusal, and its description. -/
def description? : Refusal → Option (Nat × String)
  | notFound => some (2, "No such file or directory")
  | denied => some (13, "Permission denied")
  | alreadyThere => some (17, "File exists")
  | notDirectory => some (20, "Not a directory")
  | isDirectory => some (21, "Is a directory")
  | nameTooLong => some (36, "File name too long")
  | tooManyLinks => some (40, "Too many levels of symbolic links")
  | nullInPath => none

/-- Does the refusal mean that nothing is there? Then it is no failure to have asked. -/
def isAbsence : Refusal → Bool
  | notFound | notDirectory | tooManyLinks | nullInPath => true
  | denied | alreadyThere | isDirectory | nameTooLong => false

end Refusal

namespace Entry

/-- Puts an entry at a place below a folder, where the folders on the way must be there. Anything
that is in the place is replaced. -/
def put (entry : Entry) : List String → Folder → Folder
  | [], entries => entries
  | [name], entries =>
    match entries with
    | [] => [(name, entry)]
    | (n, old) :: rest => if n == name then (n, entry) :: rest else (n, old) :: put entry [name] rest
  | name :: next :: more, entries =>
    match entries with
    | [] => []
    | (n, old) :: rest =>
      if n == name then
        match old with
        | folder inner => (n, folder (put entry (next :: more) inner)) :: rest
        | _ => (n, old) :: rest
      else (n, old) :: put entry (name :: next :: more) rest

/-- What is at a place below a folder. -/
def at? : List String → Folder → Option Entry
  | [], entries => some (.folder entries)
  | name :: rest, entries =>
    match entries.lookup name with
    | none => none
    | some entry =>
      match entry, rest with
      | entry, [] => some entry
      | .folder inner, rest => at? rest inner
      | _, _ => none

/-- Is the entry a real folder? -/
def isFolder : Entry → Bool
  | folder _ => true
  | _ => false

/-- Takes what is at a place out of a folder. -/
def erase : List String → Folder → Folder
  | [], entries => entries
  | [name], entries => entries.filter fun (n, _) => n != name
  | name :: next :: more, entries =>
    match entries with
    | [] => []
    | (n, old) :: rest =>
      if n == name then
        match old with
        | folder inner => (n, folder (erase (next :: more) inner)) :: rest
        | _ => (n, old) :: rest
      else (n, old) :: erase (name :: next :: more) rest

end Entry

/-- What a path is followed for. -/
inductive Aim where
  /-- What is in its place, even if that is a link. -/
  | itself
  /-- What is found in the end. -/
  | target
  /-- A file, which is made if there is none. -/
  | file
deriving DecidableEq, Repr

/-- Where a path leads. -/
structure Place where
  /-- The names from the top. -/
  names : List String
  /-- What is there. -/
  entry : Option Entry

namespace Tree

/-- The number of links that may be followed on one path. -/
def linkLimit : Nat := 40

/-- The number of bytes that a name may have. -/
def nameLimit : Nat := 255

/-- The number of bytes that a path must not reach. -/
def pathLimit : Nat := 4096

/-- Follows names from a place that is a folder, as far as there are no links: `jump` goes on behind
one, with the place where its target starts and the names from there. -/
def pass (tree : Tree) (aim : Aim) (jump : List String → List String → Except Refusal Place)
    (here : List String) : List String → Except Refusal Place
  | [] => .ok ⟨here, Entry.at? here tree.top⟩
  | name :: rest =>
    if name = "" then pass tree aim jump here rest
    else if here ∈ tree.closed then .error .denied
    else if name = "." then pass tree aim jump here rest
    else if name = ".." then pass tree aim jump here.dropLast rest
    -- A slash at the end asks for a folder, and no folder is made where a file is asked for.
    else if aim = .file ∧ rest = [""] then .error .isDirectory
    else if nameLimit < name.utf8ByteSize then .error .nameTooLong
    else
      let there := here ++ [name]
      match Entry.at? there tree.top with
      | none => if rest.isEmpty then .ok ⟨there, none⟩ else .error .notFound
      | some (.folder _) => pass tree aim jump there rest
      | some (.file bytes) =>
        if rest.isEmpty then .ok ⟨there, some (.file bytes)⟩ else .error .notDirectory
      | some (.link target) =>
        if rest.isEmpty ∧ aim = .itself then .ok ⟨there, some (.link target)⟩
        else
          jump (if (Path.rootOf target).isEmpty then here else []) (Path.targetNames target ++ rest)

/-- Follows names from a place that is a folder, and as many links as are allowed. -/
def follow (tree : Tree) (aim : Aim) : Nat → List String → List String → Except Refusal Place
  | 0 => tree.pass aim fun _ _ => .error .tooManyLinks
  | links + 1 => tree.pass aim (follow tree aim links)

/-- The place where a path starts. -/
def start (tree : Tree) (path : Path) : List String :=
  if path.root.isEmpty then tree.base else []

/-- The place of a path. -/
def resolve (tree : Tree) (path : Path) (aim : Aim) : Except Refusal Place :=
  if path.hasNull then .error .nullInPath
  else if pathLimit ≤ path.text.utf8ByteSize then .error .nameTooLong
  else tree.follow aim linkLimit (tree.start path) path.names

/-- The path from the top that a path means, whatever lies on the way. -/
def absolute (tree : Tree) (path : Path) : Path :=
  if path.root.isEmpty then ⟨"/", tree.base ++ path.names⟩ else path

/-- What a path leads to, if it leads to anything. -/
def find? (tree : Tree) (path : Path) : Option Entry :=
  match tree.resolve path .target with
  | .ok place => place.entry
  | .error _ => none

/-- Does a path lead to a folder? -/
def isFolder (tree : Tree) (path : Path) : Bool :=
  match tree.find? path with
  | some (.folder _) => true
  | _ => false

/-- Does a path lead to a file? -/
def isFile (tree : Tree) (path : Path) : Bool :=
  match tree.find? path with
  | some (.file _) => true
  | _ => false

/-- Puts an entry at a place. -/
def put (tree : Tree) (names : List String) (entry : Entry) : Tree :=
  { tree with top := Entry.put entry names tree.top }

end Tree

end JavaMetrics.Files
