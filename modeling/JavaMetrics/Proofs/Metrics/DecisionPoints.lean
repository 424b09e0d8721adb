import JavaMetrics.Proofs.Java.MemberSpots
import JavaMetrics.Proofs.Metrics.Figures

/-!
# Every decision point is counted once

The complexity of a file is found by two walks: one that is cut at methods finds
the methods, and one that is not cut counts the decision points in the body of
each. Methods stand in the bodies of other methods to any depth, in anonymous and
local classes; the cut walk does not come to those, and the other counts what is
in them for the outermost method around them.

So the decision points gathered method by method are the decision points of the
tree that lie in the body of an outermost method: the same spots
(`mem_gathered`), and none of them twice (`nodup_gathered`), because the bodies
lie where the cut walk does not go on.
-/

namespace JavaMetrics.Metrics

open Java

/-- Is the spot a method with no method above it? -/
def OutermostMethod (root : Node) (spot : Spot) : Prop :=
  isMethod spot.node = true ∧
    ∀ upper ∈ root.spots, upper.Above spot → isMethod upper.node = false

instance (root : Node) (spot : Spot) : Decidable (OutermostMethod root spot) :=
  inferInstanceAs (Decidable (_ ∧ _))

/-- Does the spot lie at or below the body of an outermost method? -/
def InMethodBody (root : Node) (spot : Spot) : Prop :=
  ∃ m ∈ root.spots, OutermostMethod root m ∧ ∃ body ∈ m.child? .body, body.way <+: spot.way

instance (root : Node) (spot : Spot) : Decidable (InMethodBody root spot) :=
  inferInstanceAs (Decidable (∃ m ∈ root.spots, _ ∧ _))

/-- The decision points of a tree that lie in the body of an outermost method. -/
def decisionsInside (root : Node) : List Spot :=
  root.spots.filter fun spot => isDecision spot.node && decide (InMethodBody root spot)

/-- The decision points of a tree that lie in no such body. -/
def decisionsOutside (root : Node) : List Spot :=
  root.spots.filter fun spot => isDecision spot.node && !decide (InMethodBody root spot)

/-! ## Decision points by their spots -/

/-- The decision points in the body of a method. -/
def bodyDecisions (m : Spot) : List Spot :=
  match m.child? .body with
  | some body => body.under.filter (isDecision ·.node)
  | none => []

theorem length_decisions_under (spot : Spot) :
    (spot.under.filter (isDecision ·.node)).length = decisionPoints spot.node := by
  rw [decisionPoints, ← Spot.map_node_under, ← Spot.map_node_filter, List.length_map]

theorem complexity_eq (m : Spot) : complexity ⟨m.node⟩ = 1 + (bodyDecisions m).length := by
  rw [complexity, Method.body?, ← Spot.map_node_child?, bodyDecisions]
  cases m.child? .body with
  | none => rfl
  | some body =>
      simp only [Option.map_some]
      rw [length_decisions_under]

theorem mem_bodyDecisions {root : Node} {m spot : Spot} (hm : m ∈ root.spots) :
    spot ∈ bodyDecisions m ↔
      (spot ∈ root.spots ∧ isDecision spot.node = true) ∧
        ∃ body ∈ m.child? .body, body.way <+: spot.way := by
  rw [bodyDecisions]
  cases hbody : m.child? .body with
  | none => simp
  | some body =>
      have hspot := Spot.mem_spots_of_children hm (Spot.mem_children_of_child? hbody)
      simp only [List.mem_filter, Spot.mem_under hspot, Option.mem_def, Option.some.injEq,
        exists_eq_left']
      tauto

theorem way_of_mem_bodyDecisions {m spot : Spot} (h : spot ∈ bodyDecisions m) :
    m.way <+: spot.way := by
  rw [bodyDecisions] at h
  split at h
  · next body hbody =>
      have hchild := Spot.above_of_mem_children (Spot.mem_children_of_child? hbody)
      obtain ⟨start, hstart, hreach⟩ := Descent.mem_run.mp (List.mem_of_mem_filter h)
      obtain rfl := List.mem_singleton.mp hstart
      exact hchild.1.trans hreach.way
  · cases h

theorem nodup_bodyDecisions (m : Spot) : ((bodyDecisions m).map (·.way)).Nodup := by
  rw [bodyDecisions]
  split
  · next body _ => exact body.nodup_under.sublist (List.filter_sublist.map _)
  · exact .nil

/-! ## Decision points gathered method by method -/

theorem flatMap_filter {α β : Type} (p : α → Bool) (f : α → List β) (values : List α) :
    (values.filter p).flatMap f = values.flatMap fun v => if p v then f v else [] := by
  induction values with
  | nil => rfl
  | cons v rest ih =>
      rw [List.filter_cons, List.flatMap_cons, ← ih]
      split
      · rw [List.flatMap_cons]
      · rw [List.nil_append]

/-- The decision points in the bodies of the methods of the file, one method after the other. -/
def gathered (unit : CompilationUnit) : List Spot :=
  unit.fileMethodSpots.flatMap bodyDecisions

theorem sum_map_sub_one {α : Type} (f : α → Int) (values : List α) :
    (values.map fun v => f v - 1).sum = (values.map f).sum - values.length := by
  induction values with
  | nil => rfl
  | cons v rest ih =>
      simp only [List.map_cons, List.sum_cons, List.length_cons, ih]
      omega

theorem sum_complexity_fileMethods (unit : CompilationUnit) :
    (unit.fileMethods.map complexity).sum =
      unit.fileMethods.length + (gathered unit).length := by
  rw [unit.fileMethods_eq, gathered]
  induction unit.fileMethodSpots with
  | nil => rfl
  | cons m rest ih =>
      simp only [List.map_cons, List.sum_cons, List.length_cons, List.flatMap_cons,
        List.length_append, complexity_eq] at ih ⊢
      omega

section

variable {unit : CompilationUnit} (hroot : isMethod unit.root = false)

include hroot

theorem mem_fileMethodSpots {m : Spot} :
    m ∈ unit.fileMethodSpots ↔ m ∈ unit.root.spots ∧ OutermostMethod unit.root m := by
  rw [CompilationUnit.fileMethodSpots, List.mem_filter, Node.mem_walkSpots, OutermostMethod]
  constructor
  · rintro ⟨⟨hm, hfree⟩, hmethod⟩
    refine ⟨hm, hmethod, ?_⟩
    intro upper hupper habove
    cases hway : upper.way with
    | nil =>
        -- above every spot of the tree stands its root, and that is no method
        have hat := Node.mem_spots.mp hupper
        rw [hway, Node.at?] at hat
        injection hat with hat
        rw [← hat, hroot]
    | cons i way => exact hfree upper hupper habove (by simp [hway])
  · rintro ⟨hm, hmethod, hfree⟩
    exact ⟨⟨hm, fun upper hupper habove _ => hfree upper hupper habove⟩, hmethod⟩

theorem mem_gathered {spot : Spot} :
    spot ∈ gathered unit ↔ spot ∈ decisionsInside unit.root := by
  rw [gathered, List.mem_flatMap, decisionsInside, List.mem_filter, Bool.and_eq_true,
    decide_eq_true_iff]
  constructor
  · rintro ⟨m, hm, hspot⟩
    obtain ⟨hplaced, houter⟩ := (mem_fileMethodSpots hroot).mp hm
    obtain ⟨⟨htree, hdecision⟩, hbody⟩ := (mem_bodyDecisions hplaced).mp hspot
    exact ⟨htree, hdecision, m, hplaced, houter, hbody⟩
  · rintro ⟨htree, hdecision, m, hplaced, houter, hbody⟩
    exact ⟨m, (mem_fileMethodSpots hroot).mpr ⟨hplaced, houter⟩,
      (mem_bodyDecisions hplaced).mpr ⟨⟨htree, hdecision⟩, hbody⟩⟩

theorem nodup_gathered : ((gathered unit).map (·.way)).Nodup := by
  rw [gathered, CompilationUnit.fileMethodSpots, flatMap_filter, Node.walkSpots_eq_run hroot]
  apply Descent.nodup_flatMap_run
  · intro spot
    split
    · exact nodup_bodyDecisions spot
    · exact .nil
  · intro spot o ho
    split at ho
    · exact way_of_mem_bodyDecisions ho
    · cases ho
  · -- where something is gathered, the walk is cut
    intro spot o ho next hnext
    split at ho
    · next hmethod =>
        rw [next_walk_of_cut hmethod] at hnext
        cases hnext
    · cases ho
  · exact List.pairwise_singleton _ _

theorem length_gathered : (gathered unit).length = (decisionsInside unit.root).length := by
  have hinside : (decisionsInside unit.root).Nodup :=
    (List.Nodup.of_map _ unit.root.nodup_spots).sublist List.filter_sublist
  have hperm : (gathered unit).Perm (decisionsInside unit.root) :=
    (List.perm_ext_iff_of_nodup (List.Nodup.of_map _ (nodup_gathered hroot)) hinside).mpr
      fun _ => mem_gathered hroot
  exact hperm.length_eq

end

theorem decisionPoints_eq_inside_add_outside (root : Node) :
    decisionPoints root = (decisionsInside root).length + (decisionsOutside root).length := by
  have hall : decisionPoints root = (root.spots.filter (isDecision ·.node)).length := by
    rw [decisionPoints, ← Node.map_node_spots, ← Spot.map_node_filter, List.length_map]
  rw [hall, List.length_eq_length_filter_add fun spot => decide (InMethodBody root spot),
    List.filter_filter, List.filter_filter, decisionsInside, decisionsOutside]
  simp only [Bool.and_comm]

/-- How the complexities of a unit are made up of the decision points of its tree. -/
structure DecisionAccount (logger : String) (unit : CompilationUnit) : Prop where
  /-- The spots of the tree are its nodes, each at its way and only once. -/
  placed : ∀ spot, spot ∈ unit.root.spots ↔ unit.root.at? spot.way = some spot.node
  distinct : (unit.root.spots.map (·.way)).Nodup
  /-- The methods of the file are the outermost methods. -/
  file : unit.fileMethods = unit.fileMethodSpots.map fun m => ⟨m.node⟩
  outermost : ∀ m, m ∈ unit.fileMethodSpots ↔ m ∈ unit.root.spots ∧ OutermostMethod unit.root m
  /-- Their complexities count every decision point inside their bodies once. -/
  inside : (unit.fileMethods.map fun m => (complexity m : Int) - 1).sum =
    (decisionsInside unit.root).length
  whole : (decisionPoints unit.root : Int) =
    (unit.fileMethods.map fun m => (complexity m : Int) - 1).sum +
      (decisionsOutside unit.root).length
  wmc : ∀ record ∈ topLevelRecords unit, record ∈ (aggregate logger unit).1 ∧
    record.wmc = record.methodCount + (decisionsInside unit.root).length

/-- In a tree whose root is no method, the complexities of the methods of the file count every
decision point in the body of an outermost method, none of them twice and no others. -/
theorem decision_points_counted_once (logger : String) (unit : CompilationUnit)
    (hroot : isMethod unit.root = false) : DecisionAccount logger unit := by
  have hsum := sum_complexity_fileMethods unit
  rw [length_gathered hroot] at hsum
  have hinside : (unit.fileMethods.map fun m => (complexity m : Int) - 1).sum =
      (decisionsInside unit.root).length := by
    rw [sum_map_sub_one, sum_natCast, hsum]
    omega
  refine ⟨fun _ => Node.mem_spots, unit.root.nodup_spots, unit.fileMethods_eq,
    fun _ => mem_fileMethodSpots hroot, hinside, ?_, ?_⟩
  · rw [hinside, decisionPoints_eq_inside_add_outside]
    omega
  · intro record hrecord
    refine ⟨(topLevel_append_nested_perm logger unit).subset (List.mem_append_left _ hrecord), ?_⟩
    have hsums := sums_of_topLevel hrecord
    rw [hsums.wmc, hsums.methodCount, sum_natCast, List.length_map, hsum]
    omega

/-- A class with a conditional expression in a field and with a method that has a loop; in the loop
stands an anonymous class whose method has a branch. -/
def methodInMethod : CompilationUnit where
  path := "A.java"
  text := "A"
  code := [65]
  root := { kind := "program", start := 0, stop := 1, children := [
    { kind := "class_declaration", start := 0, stop := 1, children := [
      { kind := "identifier", field := some .name, start := 0, stop := 1 },
      { kind := "class_body", field := some .body, start := 1, stop := 1, children := [
        { kind := "field_declaration", start := 1, stop := 1, children := [
          { kind := "ternary_expression", start := 1, stop := 1 }] },
        { kind := "method_declaration", start := 1, stop := 1, children := [
          { kind := "block", field := some .body, start := 1, stop := 1, children := [
            { kind := "while_statement", start := 1, stop := 1, children := [
              { kind := "class_body", start := 1, stop := 1, children := [
                { kind := "method_declaration", start := 1, stop := 1, children := [
                  { kind := "block", field := some .body, start := 1, stop := 1, children := [
                    { kind := "if_statement", start := 1, stop := 1 }] }] }] }] }] }] }] }] }] }

theorem decision_points_of_method_in_method :
    methodInMethod.fileMethods.map complexity = [3] ∧ decisionPoints methodInMethod.root = 3 ∧
      DecisionAccount "metrics" methodInMethod := by
  refine ⟨?_, ?_, decision_points_counted_once _ _ rfl⟩
  · simp [CompilationUnit.fileMethods, methodInMethod, Node.walk, Node.walkStack, isMethod,
      complexity, Method.body?, Node.child?, decisionPoints, Node.descendants, isDecision,
      branchKinds, isShortCircuit]
  · simp [methodInMethod, decisionPoints, Node.descendants, Node.walk, Node.walkStack, isDecision,
      branchKinds, isShortCircuit]

end JavaMetrics.Metrics
