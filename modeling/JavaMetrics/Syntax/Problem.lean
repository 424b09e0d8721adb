import JavaMetrics.Syntax.Position
import JavaMetrics.Syntax.Walk
import JavaMetrics.Text.Blank

/-!
# Syntax problems

What is wrong with a source, as its tree shows it: a node of kind `ERROR` covers
text that could not be read, and a missing node stands where a token should be.
What lies below an unread text is not reported again.
-/

namespace JavaMetrics

/-- Something wrong with a source; line and column count from one. -/
structure Problem where
  line : Int
  column : Int
  message : String
deriving DecidableEq, Repr

namespace Problem

/-- A problem as it is shown. -/
def text (problem : Problem) : String :=
  s!"line {problem.line}:{problem.column}: {problem.message}"

/-- The number of characters of a source text that a message shows. -/
def snippetLength : Nat := 40

/-- A text on one line, cut when it is long. -/
def snippet (text : String) : String :=
  let cs := " ".toList.intercalate (Text.words text.toList)
  if snippetLength < cs.length then String.ofList (cs.take (snippetLength - 3)) ++ "..."
  else String.ofList cs

/-- What is wrong at a faulty node. -/
def describe (code : List UInt8) (node : Node) : String :=
  if node.isError then s!"Syntax error near '{snippet (node.text code)}'"
  else s!"Missing '{node.kind}'"

/-- The problem of a faulty node. -/
def ofNode (code : List UInt8) (node : Node) : Problem :=
  let (line, column) := position code node.start
  ⟨line + 1, column + 1, describe code node⟩

end Problem

/-- The problems of a tree in the order of its nodes. -/
def Node.problems (code : List UInt8) (root : Node) : List Problem :=
  if root.hasFault then
    ((root.walk Node.isError).filter Node.isFaulty).map (Problem.ofNode code)
  else []

end JavaMetrics
