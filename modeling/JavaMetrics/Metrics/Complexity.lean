import JavaMetrics.Java.Declaration
import JavaMetrics.Syntax.Walk

/-!
# Cyclomatic complexity

The complexity of a method is one more than the number of decision points in its
body: branches, loops, switch labels, catch clauses, conditional expressions and
short-circuit operators. Everything in the body counts, also what is in lambdas
and in classes declared there.
-/

namespace JavaMetrics.Metrics

/-- The kinds of nodes that are decision points by themselves. -/
def branchKinds : List String := [
  "if_statement", "for_statement", "enhanced_for_statement", "while_statement", "do_statement",
  "switch_label", "catch_clause", "ternary_expression"]

/-- Is the node a conjunction or a disjunction that may leave its second operand out? -/
def isShortCircuit (node : Node) : Bool :=
  node.kind == "binary_expression" &&
    match node.child? .operator with
    | some operator => operator.kind == "&&" || operator.kind == "||"
    | none => false

/-- Is the node a decision point? -/
def isDecision (node : Node) : Bool :=
  branchKinds.contains node.kind || isShortCircuit node

/-- The number of decision points at a node and below it. -/
def decisionPoints (node : Node) : Nat :=
  (node.descendants.filter isDecision).length

/-- The complexity of a method; one when it has no body. -/
def complexity (method : Java.Method) : Nat :=
  match method.body? with
  | some body => 1 + decisionPoints body
  | none => 1

end JavaMetrics.Metrics
