/-!
# Syntax trees

A node has a kind, a range of byte offsets in its source and ordered children.
Keywords and punctuation are nodes too, told apart by `named`; comments stand
among the children where they stand in the text. A tree need not come from a
clean source: a node of kind `ERROR` covers text that could not be read, and a
`missing` node stands for a token that should have been there.
-/

namespace JavaMetrics

/-- The roles under which a parent finds one of its children. -/
inductive Field where
  | name
  | body
  | operator
deriving DecidableEq, Repr

/-- A node of a syntax tree. -/
structure Node where
  kind : String
  /-- False for keywords and punctuation. -/
  named : Bool := true
  /-- The token was expected and is not in the text. -/
  missing : Bool := false
  /-- The node cannot give the text it covers. -/
  textless : Bool := false
  /-- The role under which the parent finds this node. -/
  field : Option Field := none
  /-- Byte offset of the first byte. -/
  start : Nat
  /-- Byte offset after the last byte. -/
  stop : Nat
  children : List Node := []
deriving Repr

namespace Node

/-- The children that are not keywords or punctuation. -/
def namedChildren (node : Node) : List Node :=
  node.children.filter (·.named)

/-- The first child that has the role `f`. -/
def child? (node : Node) (f : Field) : Option Node :=
  node.children.find? fun c => decide (c.field = some f)

/-- Does the node cover text that could not be read? -/
def isError (node : Node) : Bool :=
  node.kind == "ERROR"

/-- Is there something wrong at this very node? -/
def isFaulty (node : Node) : Bool :=
  node.isError || node.missing

/-- Is the node a comment? -/
def isComment (node : Node) : Bool :=
  node.kind == "comment" || node.kind == "line_comment" || node.kind == "block_comment"

mutual

/-- Is there something wrong at this node or anywhere below it? -/
def hasFault : Node → Bool
  | ⟨kind, named, missing, textless, field, start, stop, children⟩ =>
    isFaulty ⟨kind, named, missing, textless, field, start, stop, children⟩ ||
      anyFault children

/-- Is there something wrong in one of these trees? -/
def anyFault : List Node → Bool
  | [] => false
  | node :: rest => hasFault node || anyFault rest

end

mutual

/-- The number of nodes of a tree. -/
def size : Node → Nat
  | ⟨_, _, _, _, _, _, _, children⟩ => 1 + sizeAll children

/-- The number of nodes of some trees together. -/
def sizeAll : List Node → Nat
  | [] => 0
  | node :: rest => size node + sizeAll rest

end

theorem size_eq (node : Node) : node.size = 1 + sizeAll node.children := by
  cases node
  rfl

theorem sizeAll_append (first second : List Node) :
    sizeAll (first ++ second) = sizeAll first + sizeAll second := by
  induction first with
  | nil => simp [sizeAll]
  | cons node rest ih => simp [sizeAll, ih, Nat.add_assoc]

end Node

end JavaMetrics
