import JavaMetrics.Syntax.Node

/-!
# Walking a tree

`Node.walk` visits a tree in pre-order with a stack of nodes still to come. A
predicate can cut the walk short: below a node that satisfies it nothing is
visited, though the node itself is. The node the walk starts from is never cut.

`Node.preorder` is the same order by recursion on the tree.
-/

namespace JavaMetrics.Node

/-- Pops a node, visits it, and pushes its children unless `cut` holds of it. -/
def walkStack (cut : Node → Bool) (stack : List Node) : List Node :=
  match stack with
  | [] => []
  | node :: rest =>
    node :: (if cut node then walkStack cut rest else walkStack cut (node.children ++ rest))
termination_by sizeAll stack
decreasing_by
  · simp only [sizeAll, size_eq]; omega
  · simp only [sizeAll, size_eq, sizeAll_append]; omega

/-- The nodes from `root` down in pre-order, without those below a node other than `root` at which
`cut` holds. -/
def walk (cut : Node → Bool) (root : Node) : List Node :=
  root :: walkStack cut root.children

/-- Every node from `root` down, in pre-order. -/
def descendants (root : Node) : List Node :=
  root.walk fun _ => false

mutual

/-- The nodes of a tree in pre-order, without those below a node at which `cut` holds. -/
def preorder (cut : Node → Bool) : Node → List Node
  | ⟨kind, named, missing, textless, field, start, stop, children⟩ =>
    let node : Node := ⟨kind, named, missing, textless, field, start, stop, children⟩
    node :: (if cut node then [] else preorderAll cut children)

/-- The nodes of some trees, one tree after the other. -/
def preorderAll (cut : Node → Bool) : List Node → List Node
  | [] => []
  | node :: rest => preorder cut node ++ preorderAll cut rest

end

end JavaMetrics.Node
