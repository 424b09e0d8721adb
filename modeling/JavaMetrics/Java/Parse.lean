import JavaMetrics.Java.Chart
import JavaMetrics.Java.Grammar

/-!
# Reading a program

`parse?` gives the tree of a text that the grammar derives, and nothing for any
other text: there is no recovery from errors. `tree` makes of such a text a
single node that says so.
-/

namespace JavaMetrics.Java

/-- The offset and the text after a byte order mark, which only counts at the very front. -/
def afterMark (cs : List Char) : Nat × List Char :=
  match cs with
  | '\ufeff' :: rest => (3, rest)
  | _ => (0, cs)

/-- The tree of a program, when the text is one. -/
def parse? (text : String) : Option Node :=
  let (offset, cs) := afterMark text.toList
  let tasks := (network.entry .program).map fun n => Task.expect ⟨n, 0, []⟩
  readColumns network (cs.length + 1) #[] [⟨offset, cs, tasks⟩]

/-- The tree of a text. A text that is not a program is one node that could not be read. -/
def tree (text : String) : Node :=
  (parse? text).getD { kind := "ERROR", start := 0, stop := text.utf8ByteSize }

end JavaMetrics.Java
