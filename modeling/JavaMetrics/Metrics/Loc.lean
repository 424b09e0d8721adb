import JavaMetrics.Text.Blank

/-!
# Lines of code

A line counts unless it is blank or only a comment. The scanner looks at the two
ends of a line and not at what is in it: a line is only a comment if it begins
with `//` or `*`, if it begins with `/*` or lies in an open block comment and
nothing but another comment follows the first `*/` on it, or if it has no `*/` in
these two cases. The first `*/` may share its star with the `/*` before it.
-/

namespace JavaMetrics.Metrics.Loc

/-- Where the scanner is between two lines. -/
inductive State where
  | code
  | block
deriving DecidableEq, Repr

/-- A line without the control characters and blanks at its ends. -/
def trim (line : List Char) : List Char :=
  Text.trimBoth Text.isControl line

/-- Does a text begin with a comment? -/
def opensComment : List Char → Bool
  | '/' :: '/' :: _ => true
  | '/' :: '*' :: _ => true
  | _ => false

/-- The text after the first `*/`. -/
def afterClose? : List Char → Option (List Char)
  | [] => none
  | '*' :: '/' :: rest => some rest
  | _ :: rest => afterClose? rest

/-- Does the text after a closed comment hold code? -/
def holdsCode (tail : List Char) : Bool :=
  let tail := trim tail
  !tail.isEmpty && !opensComment tail

/-- A line that begins inside a block comment, or with one: it counts if code follows the close.
Without a close the block stays open. -/
def closeBlock (line : List Char) : State × Bool :=
  match afterClose? line with
  | some tail => (.code, holdsCode tail)
  | none => (.block, false)

/-- Reads a trimmed line: the state after it, and whether it counts. -/
def stepTrimmed (state : State) (line : List Char) : State × Bool :=
  match state, line with
  | state, [] => (state, false)
  | .block, line => closeBlock line
  | .code, '/' :: '*' :: rest => closeBlock ('/' :: '*' :: rest)
  | .code, '/' :: '/' :: _ => (.code, false)
  | .code, '*' :: _ => (.code, false)
  | .code, _ => (.code, true)

/-- Reads a line: the state after it, and whether it counts. -/
def step (state : State) (line : String) : State × Bool :=
  stepTrimmed state (trim line.toList)

/-- For each of the lines whether it counts. -/
def marks (state : State) : List String → List Bool
  | [] => []
  | line :: rest =>
    let (next, counted) := step state line
    counted :: marks next rest

/-- The number of lines that count. -/
def count (lines : List String) : Nat :=
  (marks .code lines).count true

/-- The lines from one number to another, both counted from one. Numbers outside of the list are
moved to its ends. -/
def range (lines : List String) (first last : Int) : List String :=
  let skipped := (max first 1 - 1).toNat
  (lines.take (min last lines.length).toNat).drop skipped

/-- The number of lines that count from one number to another. The scan starts outside of a
comment. -/
def countRange (lines : List String) (first last : Int) : Nat :=
  count (range lines first last)

/-- The number of lines that count in a whole text. -/
def countText (text : String) : Nat :=
  let lines := Text.lines text
  countRange lines 1 lines.length

end JavaMetrics.Metrics.Loc
