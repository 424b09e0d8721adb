import JavaMetrics.Text.Blank

/-!
# Paths

A path is a list of names, counted from the working directory or from the top.
Empty names and single dots are dropped when a path is read; double dots are
kept, because a link may stand before them. The target of a link is no path: what
stands at its end is kept even if it is an empty name or a dot.
-/

namespace JavaMetrics.Files

/-- A path. -/
structure Path where
  /-- The slashes with which an absolute path begins. -/
  root : String := ""
  names : List String := []
deriving DecidableEq, Repr

namespace Path

/-- The names between the slashes of a text. -/
def namesOf (text : String) : List String :=
  ((Text.splitAt '/' text.toList).map String.ofList).filter fun name =>
    !name.isEmpty && name != "."

/-- The slashes at the front that count: two are kept apart, any other number is one. -/
def rootOf (text : String) : String :=
  match text.toList with
  | '/' :: '/' :: '/' :: _ => "/"
  | '/' :: '/' :: _ => "//"
  | '/' :: _ => "/"
  | _ => ""

/-- The path that a text writes. -/
def ofText (text : String) : Path :=
  ⟨rootOf text, namesOf text⟩

/-- The names that the target of a link writes. A slash or a dot at its end asks for a folder before
it, so an empty name or a dot stays there. -/
def targetNames (target : String) : List String :=
  let written := (Text.splitAt '/' target.toList).map String.ofList
  let dotted := (written.filter fun name => !name.isEmpty).getLastD "" = "."
  namesOf target ++
    if dotted then ["."] else if written.getLastD "" = "" then [""] else []

/-- A path in writing; the working directory itself is a dot. -/
def text (path : Path) : String :=
  if path.root.isEmpty && path.names.isEmpty then "." else path.root ++ "/".intercalate path.names

/-- The path without its last name. -/
def parent (path : Path) : Path :=
  { path with names := path.names.dropLast }

/-- The path with one more name. -/
def child (path : Path) (name : String) : Path :=
  { path with names := path.names ++ [name] }

/-- Is there a null character in one of the names? No such path leads anywhere. -/
def hasNull (path : Path) : Bool :=
  path.names.any fun name => name.toList.contains '\x00'

/-- Takes every double dot together with the name before it out of a list of names. `kept` holds the
names so far, latest first. -/
def collapseFrom (absolute : Bool) (kept : List String) : List String → List String
  | [] => kept.reverse
  | ".." :: rest =>
    match kept with
    | [] => collapseFrom absolute (if absolute then [] else [".."]) rest
    | ".." :: _ => collapseFrom absolute (".." :: kept) rest
    | _ :: before => collapseFrom absolute before rest
  | name :: rest => collapseFrom absolute (name :: kept) rest

/-- The path without double dots after names. Only the text counts, not what the names stand for. -/
def collapse (path : Path) : Path :=
  { path with names := collapseFrom (!path.root.isEmpty) [] path.names }

end Path

end JavaMetrics.Files
