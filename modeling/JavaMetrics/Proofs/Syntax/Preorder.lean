import JavaMetrics.Metrics.Complexity
import JavaMetrics.Proofs.Syntax.Descent
import Mathlib.Algebra.Ring.Nat

/-!
# The walk is the pre-order of the tree

The walk has one stack. On it the children of the node visited last wait in front of
what is left of the children of the nodes above, and nothing marks where the ones end
and the others begin. The root comes off the same stack as the nodes below it, and is the
only one at which the walk is never cut.

`Walking` is that loop, one turn after the other. From the second turn on no root waits on
the stack, so that a turn is a step of the descent (`turn_of_below`), and what has been
given together with what the descent from the stack will give never changes. So the loop
ends, after as many turns as it gives spots (`ends_start`).

That the order is the one of the recursion over the tree is `walkStack_eq_preorderAll`:
what a stack gives is what its trees give, one tree after the other. For a walk that is
nowhere cut the walks from the children are then parts of it, and the decision points of a
node are its own and those of its children.
-/

namespace JavaMetrics

/-! ## The loop -/

/-- The walk between two turns of its loop. -/
structure Walking where
  /-- The spots that wait, the next one first. -/
  stack : List Spot
  /-- The spots given so far. -/
  given : List Spot

namespace Walking

variable {cut : Node → Bool}

/-- In the beginning the root waits. -/
def start (root : Node) : Walking :=
  ⟨[Spot.top root], []⟩

/-- A turn takes a spot off the stack and gives it. Its children come on the stack, unless it is
another spot than the root and `cut` holds of it. -/
def turn (cut : Node → Bool) : Walking → Option Walking
  | ⟨[], _⟩ => none
  | ⟨spot :: rest, given⟩ =>
    if spot.way ≠ [] ∧ cut spot.node = true then some ⟨rest, given ++ [spot]⟩
    else some ⟨spot.children ++ rest, given ++ [spot]⟩

/-- Does the loop stop after some turns, with these spots given? -/
inductive Ends (cut : Node → Bool) : Walking → Nat → List Spot → Prop
  | stop {state : Walking} (h : state.turn cut = none) : Ends cut state 0 state.given
  | turn {state next : Walking} {turns : Nat} {given : List Spot}
      (h : state.turn cut = some next) (hnext : Ends cut next turns given) :
      Ends cut state (turns + 1) given

theorem turn_of_below {spot : Spot} {rest given : List Spot} (h : spot.way ≠ []) :
    turn cut ⟨spot :: rest, given⟩ =
      some ⟨(walkDescent cut).next spot ++ rest, given ++ [spot]⟩ := by
  cases hcut : cut spot.node with
  | false => rw [turn, if_neg (by simp [hcut]), next_walk_of_not_cut hcut]
  | true => rw [turn, if_pos ⟨h, hcut⟩, next_walk_of_cut hcut, List.nil_append]

/-- A turn puts no root on the stack. -/
theorem below_next {spot : Spot} {rest : List Spot} (h : ∀ s ∈ spot :: rest, s.way ≠ []) :
    ∀ s ∈ (walkDescent cut).next spot ++ rest, s.way ≠ [] := by
  rw [List.forall_mem_cons] at h
  rw [List.forall_mem_append]
  refine ⟨?_, h.2⟩
  intro below hbelow hnil
  have habove := (walkDescent cut).above spot below hbelow
  rw [Spot.Above, hnil] at habove
  exact habove.2 (List.prefix_nil.mp habove.1)

theorem ends_of_below {stack given : List Spot} (h : ∀ spot ∈ stack, spot.way ≠ []) :
    Ends cut ⟨stack, given⟩ ((walkDescent cut).run stack).length
      (given ++ (walkDescent cut).run stack) := by
  -- the descent from a stack ends because the trees on it have fewer nodes with every turn
  fun_induction (walkDescent cut).run stack generalizing given with
  | case1 =>
      rw [List.append_nil]
      exact .stop rfl
  | case2 spot rest ih =>
      have hends : Ends cut ⟨(walkDescent cut).next spot ++ rest, given ++ [spot]⟩ _ _ :=
        ih (below_next h)
      rw [List.append_assoc, List.singleton_append] at hends
      exact .turn (turn_of_below (h spot List.mem_cons_self)) hends

theorem ends_start (cut : Node → Bool) (root : Node) :
    Ends cut (start root) (root.walkSpots cut).length (root.walkSpots cut) := by
  have hturn : (start root).turn cut = some ⟨(Spot.top root).children, [Spot.top root]⟩ := by
    rw [start, turn, if_neg (by simp [Spot.top]), List.append_nil, List.nil_append]
  refine .turn hturn (ends_of_below ?_)
  intro child hchild hnil
  have habove := Spot.above_of_mem_children hchild
  exact habove.2 hnil.symm

end Walking

/-! ## The recursion -/

namespace Node

theorem preorder_eq (cut : Node → Bool) (node : Node) :
    preorder cut node = node :: if cut node then [] else preorderAll cut node.children := by
  cases node
  rfl

theorem preorderAll_append (cut : Node → Bool) (first second : List Node) :
    preorderAll cut (first ++ second) = preorderAll cut first ++ preorderAll cut second := by
  induction first with
  | nil => rfl
  | cons node rest ih => rw [List.cons_append, preorderAll, preorderAll, ih, List.append_assoc]

theorem preorderAll_eq_flatMap (cut : Node → Bool) (nodes : List Node) :
    preorderAll cut nodes = nodes.flatMap (preorder cut) := by
  induction nodes with
  | nil => rfl
  | cons node rest ih => rw [preorderAll, ih, List.flatMap_cons]

theorem walkStack_eq_preorderAll (cut : Node → Bool) (stack : List Node) :
    walkStack cut stack = preorderAll cut stack := by
  fun_induction walkStack cut stack with
  | case1 => rfl
  | case2 node rest ihCut ihWhole =>
      rw [preorderAll, preorder_eq]
      split
      · rw [ihCut, List.singleton_append]
      · rw [ihWhole, preorderAll_append, List.cons_append]

theorem walk_eq (cut : Node → Bool) (root : Node) :
    root.walk cut = root :: root.children.flatMap (preorder cut) := by
  rw [walk, walkStack_eq_preorderAll, preorderAll_eq_flatMap]

/-- Where nothing is cut, the root is no exception. -/
theorem descendants_eq_preorder (root : Node) :
    root.descendants = preorder (fun _ => false) root := by
  rw [preorder_eq, if_neg Bool.false_ne_true, descendants, walk_eq, preorderAll_eq_flatMap]

theorem descendants_eq (root : Node) :
    root.descendants = root :: root.children.flatMap descendants := by
  have hchildren : descendants = preorder fun _ => false := funext descendants_eq_preorder
  rw [hchildren, preorder_eq, if_neg Bool.false_ne_true, preorderAll_eq_flatMap]

theorem length_walkStack_whole (stack : List Node) :
    (walkStack (fun _ => false) stack).length = sizeAll stack := by
  fun_induction walkStack (fun _ => false) stack with
  | case1 => rfl
  | case2 node rest _ ih =>
      rw [sizeAll_append] at ih
      rw [if_neg Bool.false_ne_true, List.length_cons, ih, sizeAll, size_eq]
      omega

theorem length_descendants (root : Node) : root.descendants.length = root.size := by
  rw [descendants, walk, List.length_cons, length_walkStack_whole, size_eq, Nat.add_comm]

end Node

namespace Metrics

/-! ## Decision points -/

theorem decisionPoints_eq (node : Node) :
    decisionPoints node =
      (if isDecision node then 1 else 0) + (node.children.map decisionPoints).sum := by
  have hchildren : ((node.children.flatMap Node.descendants).filter isDecision).length =
      (node.children.map decisionPoints).sum := by
    rw [List.filter_flatMap, List.length_flatMap]
    rfl
  rw [decisionPoints, Node.descendants_eq, List.filter_cons]
  split
  · rw [List.length_cons, hchildren, Nat.add_comm]
  · rw [hchildren, Nat.zero_add]

/-! ## The walk -/

/-- What a walk from a root gives, wherever it is cut. -/
structure WalkAccount (cut : Node → Bool) (root : Node) : Prop where
  /-- The loop ends. It takes a turn for each spot that it gives, and these are the spots of the
  nodes of the walk. -/
  ends : (Walking.start root).Ends cut (root.walk cut).length (root.walkSpots cut)
  nodes : (root.walkSpots cut).map (·.node) = root.walk cut
  /-- The walk is the recursion over the tree, in which the root is not cut. -/
  recursion : root.walk cut = root :: root.children.flatMap (Node.preorder cut)
  /-- A spot of the tree is left out exactly if it lies below a cut one other than the root. -/
  visited : ∀ spot, spot ∈ root.walkSpots cut ↔ root.at? spot.way = some spot.node ∧
    ∀ upper : Spot, root.at? upper.way = some upper.node → upper.Above spot → upper.way ≠ [] →
      cut upper.node = false
  once : ((root.walkSpots cut).map (·.way)).Nodup
  /-- A spot comes before what lies below it, and with all of that before the spots to the
  right. -/
  order : ∀ first ∈ root.walkSpots cut, ∀ second ∈ root.walkSpots cut,
    [first, second].Sublist (root.walkSpots cut) ↔ first.Above second ∨ first.LeftOf second
  /-- The walk that is nowhere cut gives every spot of the tree. -/
  whole : ∀ spot, spot ∈ root.walkSpots (fun _ => false) ↔ root.at? spot.way = some spot.node
  size : root.descendants.length = root.size
  decisions : decisionPoints root =
    (if isDecision root then 1 else 0) + (root.children.map decisionPoints).sum

/-- The loop with the stack ends for every tree and wherever it is cut, and gives the nodes in the
order of the recursion, none of them twice. -/
theorem walk_gives_preorder (cut : Node → Bool) (root : Node) : WalkAccount cut root where
  ends := by
    rw [← Node.map_node_walkSpots, List.length_map]
    exact Walking.ends_start cut root
  nodes := Node.map_node_walkSpots cut root
  recursion := Node.walk_eq cut root
  visited spot := by
    rw [Node.mem_walkSpots, Node.mem_spots]
    simp only [Node.mem_spots]
  once := Node.nodup_walkSpots cut root
  order _ hfirst _ hsecond :=
    Spot.pair_sublist_iff_precedes (Node.pairwise_precedes_walkSpots cut root) hfirst hsecond
  whole _ := Node.mem_spots
  size := root.length_descendants
  decisions := decisionPoints_eq root

end Metrics

end JavaMetrics
