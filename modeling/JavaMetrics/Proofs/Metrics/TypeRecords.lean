import JavaMetrics.Proofs.Java.MemberSpots
import JavaMetrics.Proofs.Metrics.Figures
import Mathlib.Algebra.Order.Group.Nat

/-!
# Records of types and of their member types

The complexity of a top-level type is that of all methods of the file, that of a
member type only of its own methods. The records fit together because the methods
of all types are methods of the file, no two of them the same: whatever is added
up over the methods of the member types is at most what is added up over the file
(`sum_nested_le`). `MethodAccount` says what follows for the records of a unit.
-/

namespace JavaMetrics.Metrics

open Java

theorem sum_le_of_subperm {α : Type} (f : α → Nat) {part whole : List α}
    (h : part.Subperm whole) : (part.map f).sum ≤ (whole.map f).sum := by
  obtain ⟨kept, hperm, hkept⟩ := h
  calc (part.map f).sum = (kept.map f).sum := ((hperm.map f).sum_eq).symm
    _ ≤ (whole.map f).sum := (hkept.map f).sum_le_sum fun _ _ => Nat.zero_le _

/-- Records that each have a figure added up over the methods of their type have together at most
what is added up over the methods of all types. -/
theorem sum_recordsOfTypes_le {unit : CompilationUnit} {types : List (String × TypeDeclaration)}
    {figure : Record → Int} {f : Method → Nat}
    (h : ∀ name type record, (name, type) ∈ types → compute unit name type = .ok record →
      figure record = (type.methods.map f).sum) :
    ((recordsOfTypes unit types).map figure).sum ≤
      ((types.flatMap (·.2.methods)).map f).sum := by
  induction types with
  | nil => exact le_refl _
  | cons pair rest ih =>
      obtain ⟨name, type⟩ := pair
      have hrest := ih fun n t r hmem => h n t r (List.mem_cons_of_mem _ hmem)
      rw [List.flatMap_cons, List.map_append, List.sum_append, recordsOfTypes_cons,
        List.map_append, List.sum_append]
      cases hcompute : compute unit name type with
      | error fault =>
          simp only [Except.toOption, Option.toList_none, List.map_nil, List.sum_nil]
          omega
      | ok record =>
          have hfigure := h name type record List.mem_cons_self hcompute
          simp only [Except.toOption, Option.toList_some, List.map_cons, List.map_nil,
            List.sum_cons, List.sum_nil]
          omega

theorem same_of_sums {first second : Record} {complexities : List Int}
    (hfirst : first.Sums complexities) (hsecond : second.Sums complexities) :
    first.wmc = second.wmc ∧ first.methodCount = second.methodCount ∧
      first.maxCc = second.maxCc ∧ first.amc = second.amc ∧ first.avgCc = second.avgCc := by
  have hamc : first.amc = second.amc := by
    have h := hfirst.amc.symm.trans hsecond.amc
    injection h
  refine ⟨hfirst.wmc.trans hsecond.wmc.symm, hfirst.methodCount.trans hsecond.methodCount.symm,
    hfirst.maxCc.trans hsecond.maxCc.symm, hamc, ?_⟩
  rw [hfirst.avgCc, hsecond.avgCc, hamc]

theorem publicMethods_le (type : TypeDeclaration) : publicMethods type ≤ type.methods.length :=
  List.length_filter_le _ _

section

variable {unit : CompilationUnit} (hroot : isMethod unit.root = false)
  (hbody : ∀ node ∈ unit.root.descendants, declaresType node = true →
    ∀ body, node.child? .body = some body → isMethod body = false)

include hroot hbody

theorem methods_subperm {name : String} {type : TypeDeclaration}
    (h : (name, type) ∈ unit.enumerate) : type.methods.Subperm unit.fileMethods := by
  have hsub : type.methods.Sublist (unit.enumerate.flatMap (·.2.methods)) :=
    List.sublist_flatten_of_mem (List.mem_map_of_mem (f := (·.2.methods)) h)
  exact hsub.subperm.trans (CompilationUnit.methods_subperm_fileMethods hroot hbody)

theorem sum_nested_le (f : Method → Nat) :
    (((unit.enumerate.filter (!·.2.isTopLevel)).flatMap (·.2.methods)).map f).sum ≤
      (unit.fileMethods.map f).sum := by
  have hnested : (unit.enumerate.filter (!·.2.isTopLevel)).Sublist unit.enumerate :=
    List.filter_sublist
  exact sum_le_of_subperm f ((hnested.flatMap _).subperm.trans
    (CompilationUnit.methods_subperm_fileMethods hroot hbody))

theorem npm_le_methodCount {name : String} {type : TypeDeclaration} {record : Record}
    (h : (name, type) ∈ unit.enumerate) (hcompute : compute unit name type = .ok record) :
    record.npm ≤ record.methodCount := by
  have hnpm := (compute_ok hcompute).2.1
  have hpublic := publicMethods_le type
  cases htop : type.isTopLevel with
  | true =>
      have hcount := (sums_of_compute_topLevel htop hcompute).methodCount
      have hle := (methods_subperm hroot hbody h).length_le
      rw [List.length_map] at hcount
      omega
  | false =>
      have hcount := (sums_of_compute_nested htop hcompute).methodCount
      rw [List.length_map] at hcount
      omega

/-- A figure that is added up over methods is for a top-level type at least what it is for all
member types together. -/
theorem sum_nested_figure_le {figure : Record → Int} {f : Method → Nat}
    (hfigure : ∀ (record : Record) (methods : List Method),
      record.Sums (methods.map fun m => (complexity m : Int)) →
        figure record = (methods.map f).sum)
    {top : Record} (htop : top ∈ topLevelRecords unit) :
    ((nestedRecords unit).map figure).sum ≤ figure top := by
  have hsum : ((nestedRecords unit).map figure).sum ≤
      (((unit.enumerate.filter (!·.2.isTopLevel)).flatMap (·.2.methods)).map f).sum := by
    apply sum_recordsOfTypes_le
    intro name type record hmem hcompute
    have hnested : type.isTopLevel = false := by simpa using (List.mem_filter.mp hmem).2
    exact hfigure record type.methods (sums_of_compute_nested hnested hcompute)
  have hfile := sum_nested_le hroot hbody f
  rw [hfigure top unit.fileMethods (sums_of_topLevel htop)]
  omega

theorem nested_maxCc_le {top nested : Record} (htop : top ∈ topLevelRecords unit)
    (hnested : nested ∈ nestedRecords unit) : nested.maxCc ≤ top.maxCc := by
  obtain ⟨name, type, hmem, hinner, hcompute⟩ := mem_nestedRecords.mp hnested
  rw [(sums_of_compute_nested hinner hcompute).maxCc, (sums_of_topLevel htop).maxCc]
  apply Record.maximum_le
  · apply Record.maximum_nonneg
    simp
  · intro v hv
    obtain ⟨m, hm, rfl⟩ := List.mem_map.mp hv
    apply Record.le_maximum
    exact List.mem_map_of_mem ((methods_subperm hroot hbody hmem).subset hm)

end

/-- What the spots of methods and the records of a unit have to do with each other. -/
structure MethodAccount (logger : String) (unit : CompilationUnit) : Prop where
  /-- The spots of types and their methods are those of the types that are listed. -/
  types : unit.enumerate.map (fun listed => (listed.2.node, listed.2.methods)) =
    unit.typeSpots.map fun spot => (spot.node, (methodSpots spot).map fun m => ⟨m.node⟩)
  /-- The spots of the methods of the file are those of its methods. -/
  file : unit.fileMethods = unit.fileMethodSpots.map fun m => ⟨m.node⟩
  /-- A spot is a place in the tree. -/
  placed : ∀ spot ∈ unit.typeSpots ++ unit.ownMethodSpots ++ unit.fileMethodSpots,
    unit.root.at? spot.way = some spot.node
  /-- No two methods of types stand at one spot. -/
  distinct : (unit.ownMethodSpots.map (·.way)).Nodup
  /-- A method of a type is one of the methods of the file, and only once. -/
  once : ∀ m ∈ unit.ownMethodSpots,
    m ∈ unit.fileMethodSpots ∧ (unit.fileMethodSpots.map (·.way)).count m.way = 1
  npm_le : ∀ record ∈ (aggregate logger unit).1, record.npm ≤ record.methodCount
  /-- The records of top-level types and of member types are all there are. -/
  records : (topLevelRecords unit ++ nestedRecords unit).Perm (aggregate logger unit).1
  same : ∀ first ∈ topLevelRecords unit, ∀ second ∈ topLevelRecords unit,
    first.wmc = second.wmc ∧ first.methodCount = second.methodCount ∧
      first.maxCc = second.maxCc ∧ first.amc = second.amc ∧ first.avgCc = second.avgCc
  wmc_le : ∀ top ∈ topLevelRecords unit, ((nestedRecords unit).map (·.wmc)).sum ≤ top.wmc
  methodCount_le : ∀ top ∈ topLevelRecords unit,
    ((nestedRecords unit).map (·.methodCount)).sum ≤ top.methodCount
  maxCc_le : ∀ top ∈ topLevelRecords unit, ∀ nested ∈ nestedRecords unit,
    nested.maxCc ≤ top.maxCc

/-- In a tree whose root is no method, and in which no method is the body of a type, the methods of
all types are methods of the file, none of them twice, and the records of the types fit together. -/
theorem own_methods_are_distinct_file_methods (logger : String) (unit : CompilationUnit)
    (hroot : isMethod unit.root = false)
    (hbody : ∀ node ∈ unit.root.descendants, declaresType node = true →
      ∀ body, node.child? .body = some body → isMethod body = false) :
    MethodAccount logger unit where
  types := unit.map_methods_enumerate
  file := unit.fileMethods_eq
  placed spot hspot := by
    apply Node.mem_spots.mp
    rcases List.mem_append.mp hspot with hspot | hfile
    · rcases List.mem_append.mp hspot with htype | hown
      · have hwalk := (CompilationUnit.mem_walkSpots_of_typeSpots hroot hbody htype).1
        exact (Node.mem_walkSpots.mp hwalk).1
      · exact CompilationUnit.mem_spots_of_fileMethodSpots
          (CompilationUnit.mem_fileMethodSpots_of_own hroot hbody hown)
    · exact CompilationUnit.mem_spots_of_fileMethodSpots hfile
  distinct := unit.nodup_ownMethodSpots
  once m hm := by
    have hfile := CompilationUnit.mem_fileMethodSpots_of_own hroot hbody hm
    exact ⟨hfile, List.count_eq_one_of_mem unit.nodup_fileMethodSpots
      (List.mem_map_of_mem hfile)⟩
  npm_le record hrecord := by
    rw [records_aggregate] at hrecord
    obtain ⟨name, type, hmem, hcompute⟩ := mem_recordsOfTypes.mp hrecord
    exact npm_le_methodCount hroot hbody hmem hcompute
  records := topLevel_append_nested_perm logger unit
  same first hfirst second hsecond :=
    same_of_sums (sums_of_topLevel hfirst) (sums_of_topLevel hsecond)
  wmc_le top htop := by
    refine sum_nested_figure_le hroot hbody (f := complexity) ?_ htop
    intro record methods hsums
    rw [hsums.wmc, sum_natCast]
  methodCount_le top htop := by
    refine sum_nested_figure_le hroot hbody (f := fun _ => 1) ?_ htop
    intro record methods hsums
    rw [hsums.methodCount]
    simp
  maxCc_le top htop nested hnested := nested_maxCc_le hroot hbody htop hnested

/-- A method with one decision point. -/
def branchingMethod : Node where
  kind := "method_declaration"
  start := 0
  stop := 0
  children := [
    { kind := "block", field := some .body, start := 0, stop := 0, children := [
      { kind := "if_statement", start := 0, stop := 0 }] }]

/-- A class with a method, with an anonymous class in a field and with an enum among its members.
The three methods are all alike. -/
def classWithEnum : CompilationUnit where
  path := "A.java"
  text := "AB"
  code := [65, 66]
  root := { kind := "program", start := 0, stop := 2, children := [
    { kind := "class_declaration", start := 0, stop := 2, children := [
      { kind := "identifier", field := some .name, start := 0, stop := 1 },
      { kind := "class_body", field := some .body, start := 1, stop := 2, children := [
        branchingMethod,
        { kind := "field_declaration", start := 1, stop := 1, children := [
          { kind := "class_body", start := 1, stop := 1, children := [branchingMethod] }] },
        { kind := "enum_declaration", start := 1, stop := 2, children := [
          { kind := "identifier", field := some .name, start := 1, stop := 2 },
          { kind := "enum_body", field := some .body, start := 2, stop := 2, children := [
            { kind := "enum_body_declarations", start := 2, stop := 2,
              children := [branchingMethod] }] }] }] }] }] }

theorem bodies_classWithEnum : ∀ node ∈ classWithEnum.root.descendants,
    declaresType node = true → ∀ body, node.child? .body = some body → isMethod body = false := by
  simp [classWithEnum, branchingMethod, Node.descendants, Node.walk, Node.walkStack, Node.child?,
    isMethod, declaresType, TypeKind.ofNodeKind?]

theorem own_methods_of_class_with_enum :
    classWithEnum.ownMethodSpots.map (·.way) = [[0, 1, 0], [0, 1, 2, 1, 0, 0]] ∧
      classWithEnum.fileMethodSpots.map (·.way) =
        [[0, 1, 0], [0, 1, 1, 0, 0], [0, 1, 2, 1, 0, 0]] ∧
      MethodAccount "metrics" classWithEnum := by
  refine ⟨?_, ?_, own_methods_are_distinct_file_methods _ _ rfl bodies_classWithEnum⟩
  · simp [CompilationUnit.ownMethodSpots, CompilationUnit.typeSpots, Descent.run, typeDescent,
      methodSpots, memberSpots, groupSpots, Spot.top, Spot.child?, Spot.namedChildren,
      Spot.children, classWithEnum, branchingMethod, declaresType, TypeKind.ofNodeKind?, isMethod]
  · simp [CompilationUnit.fileMethodSpots, Node.walkSpots, Descent.run, walkDescent, walkNext,
      Spot.top, Spot.children, classWithEnum, branchingMethod, isMethod]

end JavaMetrics.Metrics
