import JavaMetrics.Syntax.Node
import JavaMetrics.Text.Utf8

/-!
# Nodes and their source

The text of a node and the place of an offset, both in terms of the bytes of the
source. Lines end at a newline byte and nowhere else.
-/

namespace JavaMetrics

/-- The byte that ends a line. -/
def newline : UInt8 := 0x0A

/-- The bytes from one offset up to another. -/
def slice (code : List UInt8) (start stop : Nat) : List UInt8 :=
  (code.drop start).take (stop - start)

/-- The text that a node covers. -/
def Node.text (code : List UInt8) (node : Node) : String :=
  if node.textless then "" else String.ofList (Text.Utf8.decode (slice code node.start node.stop))

/-- The line of an offset and its distance from the start of the line, both counted from zero. -/
def position (code : List UInt8) (offset : Nat) : Nat × Nat :=
  let before := code.take offset
  (before.count newline, (before.reverse.takeWhile (· != newline)).length)

/-- The offsets after each newline, when the bytes begin at `offset`. -/
def lineStartsFrom (offset : Nat) : List UInt8 → List Nat
  | [] => []
  | b :: rest =>
    if b == newline then (offset + 1) :: lineStartsFrom (offset + 1) rest
    else lineStartsFrom (offset + 1) rest

/-- The offsets at which the lines of a source start. -/
def lineStarts (code : List UInt8) : List Nat :=
  0 :: lineStartsFrom 0 code

/-- The number of the line that an offset lies on, from one. An offset before the source lies on
its first line. -/
def lineOf (starts : List Nat) (offset : Int) : Nat :=
  max (starts.countP fun (start : Nat) => decide ((start : Int) ≤ offset)) 1

end JavaMetrics
