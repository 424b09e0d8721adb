import JavaMetrics.Proofs.Java.Uncommented
import JavaMetrics.Proofs.Metrics.NamedTypes

/-!
# Comments count for nothing but lines

The tree of a source holds its comments, anywhere: between modifiers, between members,
between the operands of an expression. None of the figures about methods depends on
them. The methods are found as before, and a method keeps its modifiers
(`isPublic_uncommented`) and its decision points (`complexity_uncommented`).

Only one thing is read off the comments themselves. A type starts at its documentation,
so that without comments fewer lines may be looked at. The number of lines is never
compared with another figure when a record is made (`fault?_setLoc`), so that the types
that have a record are the same, and two records of one type differ in that figure at
most.
-/

namespace JavaMetrics.Metrics

open Java
open Node (uncommentedAll)

/-! ## Methods -/

theorem exists_public_uncommentedAll (nodes : List Node) :
    (∃ keyword ∈ uncommentedAll nodes, keyword.named = false ∧ keyword.kind = "public") ↔
      ∃ keyword ∈ nodes, keyword.named = false ∧ keyword.kind = "public" := by
  constructor
  · rintro ⟨keyword, hmem, hpublic⟩
    obtain ⟨before, hbefore, -, rfl⟩ := Node.mem_uncommentedAll.mp hmem
    rw [Node.named_uncommented, Node.kind_uncommented] at hpublic
    exact ⟨before, hbefore, hpublic⟩
  · rintro ⟨keyword, hmem, hnamed, hkind⟩
    have hcomment : keyword.isComment = false := by simp [Node.isComment, hkind]
    refine ⟨keyword.uncommented, Node.mem_uncommentedAll.mpr ⟨keyword, hmem, hcomment, rfl⟩, ?_⟩
    rw [Node.named_uncommented, Node.kind_uncommented]
    exact ⟨hnamed, hkind⟩

theorem isPublic_uncommented (method : Method) :
    method.uncommented.isPublic = method.isPublic := by
  have hfind : method.uncommented.node.children.find? (·.kind == "modifiers") =
      (method.node.children.find? (·.kind == "modifiers")).map Node.uncommented := by
    show method.node.uncommented.children.find? _ = _
    rw [Node.children_uncommented]
    exact Node.find?_uncommentedAll
      (Node.looksThrough_kind (q := (· == "modifiers")) (by decide) _)
  rw [Bool.eq_iff_iff, isPublic_iff, isPublic_iff, WrittenPublic, WrittenPublic, hfind]
  cases method.node.children.find? (·.kind == "modifiers") with
  | none => simp
  | some modifiers =>
      simp only [Option.map_some, Option.mem_def, Option.some.injEq, exists_eq_left',
        Node.children_uncommented]
      exact exists_public_uncommentedAll modifiers.children

theorem isShortCircuit_uncommented {node : Node} (h : node.BareComments) :
    isShortCircuit node.uncommented = isShortCircuit node := by
  rw [isShortCircuit, isShortCircuit, Node.kind_uncommented, Node.child?_uncommented h]
  cases node.child? .operator with
  | none => rfl
  | some operator => simp only [Option.map_some, Node.kind_uncommented]

theorem isDecision_uncommented {node : Node} (h : node.BareComments) :
    isDecision node.uncommented = isDecision node := by
  rw [isDecision, isDecision, Node.kind_uncommented, isShortCircuit_uncommented h]

theorem not_isDecision_of_isComment {node : Node} (h : node.isComment = true) :
    isDecision node = false := by
  have hkinds : ∀ kind ∈ Node.commentKinds,
      branchKinds.contains kind = false ∧ (kind == "binary_expression") = false := by
    decide
  obtain ⟨hbranch, hbinary⟩ := hkinds _ (Node.kind_mem_of_isComment h)
  rw [isDecision, isShortCircuit, hbranch, hbinary]
  rfl

theorem decisionPoints_uncommented {node : Node} (h : node.BareComments) :
    decisionPoints node.uncommented = decisionPoints node := by
  have hfilter : node.uncommented.descendants.filter isDecision =
      (node.descendants.filter isDecision).map Node.uncommented :=
    Node.filter_walk_uncommented (fun _ => rfl) h
      (fun _ hbelow => isDecision_uncommented (h.below hbelow))
      (fun _ => not_isDecision_of_isComment)
  rw [decisionPoints, hfilter, List.length_map, decisionPoints]

theorem complexity_uncommented {method : Method} (h : method.node.BareComments) :
    complexity method.uncommented = complexity method := by
  have hbody? : method.uncommented.body? = method.body?.map Node.uncommented :=
    Node.child?_uncommented h .body
  rw [complexity, complexity, hbody?]
  cases hbody : method.body? with
  | none => rfl
  | some body =>
      have hchild := h.child (List.mem_of_find?_eq_some hbody)
      simp only [Option.map_some, decisionPoints_uncommented hchild]

/-! ## Records -/

namespace Record

/-- Do two records differ in the lines of code at most? -/
def AgreesButForLoc (record other : Record) : Prop :=
  { other with loc := record.loc } = record

/-- Which rule a record breaks does not depend on its lines of code, as long as these are not
negative. -/
theorem fault?_setLoc (record : Record) {loc : Int} (hrecord : 0 ≤ record.loc) (hloc : 0 ≤ loc) :
    { record with loc }.fault? = record.fault? := by
  have hnegative : (fun figure => decide ({ record with loc }.figure figure < 0)) =
      fun figure => decide (record.figure figure < 0) := by
    funext figure
    cases figure with
    | loc =>
        show decide (loc < 0) = decide (record.loc < 0)
        rw [decide_eq_false (by omega), decide_eq_false (by omega)]
    | wmc | npm | methodCount | maxCc => rfl
  rw [fault?, fault?, hnegative]
  rfl

theorem ofComplexities_setLoc (name : String) (complexities : List Int) (npm : Int)
    {loc other : Int} (hloc : 0 ≤ loc) (hother : 0 ≤ other) :
    ofComplexities name complexities npm other =
      (ofComplexities name complexities npm loc).map fun record =>
        { record with loc := other } := by
  rw [ofComplexities, ofComplexities]
  cases mean complexities with
  | error fault => rfl
  | ok average =>
      let record : Record := {
        name, npm, loc
        wmc := total complexities
        methodCount := complexities.length
        maxCc := maximum complexities
        amc := average
        avgCc := average }
      show validate { record with loc := other } = (validate record).map _
      rw [validate, validate, fault?_setLoc record hloc hother]
      cases record.fault? with
      | none => rfl
      | some fault => rfl

end Record

section

variable {unit : CompilationUnit} (h : unit.root.BareComments)

theorem map_complexity_uncommented {methods : List Method}
    (hbare : ∀ m ∈ methods, m.node.BareComments) :
    (methods.map Method.uncommented).map complexity = methods.map complexity := by
  rw [List.map_map]
  exact List.map_congr_left fun m hm => complexity_uncommented (hbare m hm)

theorem bareComments_of_methods {type : TypeDeclaration} (htype : type.node.BareComments)
    {m : Method} (hm : m ∈ type.methods) : m.node.BareComments := by
  obtain ⟨placed, hplaced, rfl⟩ := List.mem_map.mp hm
  exact htype.below (mem_descendants_of_members (List.mem_of_mem_filter hplaced))

include h in
theorem bareComments_of_fileMethods {m : Method} (hm : m ∈ unit.fileMethods) :
    m.node.BareComments := by
  rw [unit.fileMethods_eq] at hm
  obtain ⟨spot, hspot, rfl⟩ := List.mem_map.mp hm
  apply h.below
  rw [← Node.map_node_spots]
  exact List.mem_map_of_mem (CompilationUnit.mem_spots_of_fileMethodSpots hspot)

theorem publicMethods_uncommented {type : TypeDeclaration} (htype : type.node.BareComments) :
    publicMethods type.uncommented = publicMethods type := by
  rw [publicMethods, TypeDeclaration.methods_uncommented htype, List.filter_map, List.length_map,
    publicMethods]
  congr 2
  exact funext isPublic_uncommented

theorem map_complexity_methods_uncommented {type : TypeDeclaration}
    (htype : type.node.BareComments) :
    type.uncommented.methods.map complexity = type.methods.map complexity := by
  rw [TypeDeclaration.methods_uncommented htype]
  exact map_complexity_uncommented fun _ => bareComments_of_methods htype

include h

theorem map_complexity_fileMethods_uncommented :
    unit.uncommented.fileMethods.map complexity = unit.fileMethods.map complexity := by
  rw [CompilationUnit.fileMethods_uncommented h]
  exact map_complexity_uncommented fun _ => bareComments_of_fileMethods h

theorem complexities_uncommented {type : TypeDeclaration} (htype : type.node.BareComments) :
    complexities unit.uncommented type.uncommented = complexities unit type := by
  have hcast : ∀ methods : List Method, (methods.map fun m => (complexity m : Int)) =
      (methods.map complexity).map Nat.cast := by
    intro methods
    rw [List.map_map]
    rfl
  rw [complexities, complexities, contributing, contributing, hcast, hcast]
  show (List.map complexity (if type.isTopLevel then _ else _)).map _ = _
  congr 1
  split
  · exact map_complexity_fileMethods_uncommented h
  · exact map_complexity_methods_uncommented htype

/-- The outcome for a type is the same but for the lines of code of its record. -/
theorem compute_uncommented (name : String) {type : TypeDeclaration}
    (htype : type.node.BareComments) :
    compute unit.uncommented name type.uncommented =
      (compute unit name type).map fun record =>
        { record with loc := (typeLoc unit.uncommented type.uncommented : Int) } := by
  have hcomplexities := complexities_uncommented h htype
  rw [complexities, complexities] at hcomplexities
  rw [compute, compute, hcomplexities, publicMethods_uncommented htype]
  exact Record.ofComplexities_setLoc _ _ _ (Int.natCast_nonneg _) (Int.natCast_nonneg _)

theorem forall₂_recordsOfTypes_uncommented {types : List (String × TypeDeclaration)}
    (htypes : ∀ listed ∈ types, listed.2.node.BareComments) :
    List.Forall₂ Record.AgreesButForLoc (recordsOfTypes unit types)
      (recordsOfTypes unit.uncommented
        (types.map fun listed => (listed.1, listed.2.uncommented))) := by
  induction types with
  | nil => exact .nil
  | cons listed rest ih =>
      obtain ⟨name, type⟩ := listed
      obtain ⟨htype, hrest⟩ := List.forall_mem_cons.mp htypes
      rw [List.map_cons, recordsOfTypes_cons, recordsOfTypes_cons, compute_uncommented h name htype]
      refine List.rel_append ?_ (ih hrest)
      cases compute unit name type with
      | error fault => exact .nil
      | ok record => exact .cons rfl .nil

end

/-! ## A unit and its comments -/

/-- What two units have in common of which one has the tree of the other without its comments. -/
structure CommentAccount (logger : String) (unit other : CompilationUnit) : Prop where
  /-- The source is the same. -/
  source : other.path = unit.path ∧ other.text = unit.text ∧ other.code = unit.code
  /-- Below the root the comments are gone, and every other node is there, as it was. -/
  nodes : other.root.alone = unit.root.alone ∧
    other.root.descendants.tail.map Node.alone =
      (unit.root.descendants.tail.filter (!·.isComment)).map Node.alone
  /-- The types are listed under the same names, with their kinds and the types around them. -/
  listed : other.enumerate.map (fun listed => (listed.1, listed.2.kind, listed.2.outer)) =
    unit.enumerate.map fun listed => (listed.1, listed.2.kind, listed.2.outer)
  npm : other.enumerate.map (fun listed => publicMethods listed.2) =
    unit.enumerate.map fun listed => publicMethods listed.2
  file : other.fileMethods.map complexity = unit.fileMethods.map complexity
  own : other.enumerate.map (fun listed => listed.2.methods.map complexity) =
    unit.enumerate.map fun listed => listed.2.methods.map complexity
  records : List.Forall₂ Record.AgreesButForLoc (aggregate logger unit).1 (aggregate logger other).1
  events : (aggregate logger other).2 = (aggregate logger unit).2

/-- Comments change nothing but the lines of code. -/
theorem comments_change_only_loc (logger : String) (unit : CompilationUnit)
    (h : unit.root.BareComments) : CommentAccount logger unit unit.uncommented := by
  have hlisted := CompilationUnit.enumerate_uncommented h
  have hbare : ∀ listed ∈ unit.enumerate, listed.2.node.BareComments := fun listed hmem =>
    h.below (CompilationUnit.mem_descendants_of_enumerate (List.mem_map_of_mem hmem))
  refine ⟨⟨rfl, rfl, rfl⟩, ⟨Node.alone_uncommented _, Node.alone_descendants_uncommented h⟩,
    ?_, ?_, map_complexity_fileMethods_uncommented h, ?_, ?_, ?_⟩
  · rw [hlisted, List.map_map]
    rfl
  · rw [hlisted, List.map_map]
    exact List.map_congr_left fun listed hmem => publicMethods_uncommented (hbare listed hmem)
  · rw [hlisted, List.map_map]
    exact List.map_congr_left fun listed hmem =>
      map_complexity_methods_uncommented (hbare listed hmem)
  · rw [records_aggregate, records_aggregate, hlisted]
    exact forall₂_recordsOfTypes_uncommented h hbare
  · rw [aggregate, aggregate, outcomes, outcomes, hlisted, List.map_map, List.map_map,
      List.map_map]
    apply List.map_congr_left
    intro listed hmem
    show outcomeEvent logger listed.1 (compute unit.uncommented listed.1 listed.2.uncommented) =
      outcomeEvent logger listed.1 (compute unit listed.1 listed.2)
    rw [compute_uncommented h listed.1 (hbare listed hmem)]
    cases compute unit listed.1 listed.2 with
    | error fault => rfl
    | ok record => rfl

/-- A class with its documentation at the end of a line with a semicolon; in the class stands a
comment after the modifiers of a method, and another one after an operator. -/
def commentedClass : CompilationUnit :=
  .ofTree "A.java" "; /***/\nclass A\x7bpublic/**/void m()\x7ba&&/**/b;\x7d\x7d"
    { kind := "program", start := 0, stop := 46, children := [
      { kind := ";", named := false, start := 0, stop := 1 },
      { kind := "block_comment", start := 2, stop := 7 },
      { kind := "class_declaration", start := 8, stop := 46, children := [
        { kind := "identifier", field := some .name, start := 14, stop := 15 },
        { kind := "class_body", field := some .body, start := 15, stop := 46, children := [
          { kind := "method_declaration", start := 16, stop := 45, children := [
            { kind := "modifiers", start := 16, stop := 26, children := [
              { kind := "public", named := false, start := 16, stop := 22 },
              { kind := "block_comment", start := 22, stop := 26 }] },
            { kind := "identifier", field := some .name, start := 31, stop := 32 },
            { kind := "block", field := some .body, start := 34, stop := 45, children := [
              { kind := "binary_expression", start := 35, stop := 43, children := [
                { kind := "identifier", start := 35, stop := 36 },
                { kind := "&&", named := false, field := some .operator, start := 36, stop := 38 },
                { kind := "block_comment", start := 38, stop := 42 },
                { kind := "identifier", start := 42, stop := 43 }] }] }] }] }] }] }

/-- Two lines of code with the comments in the tree, and one without them. -/
theorem comments_of_commented_class :
    commentedClass.root.BareComments ∧
      commentedClass.root.descendants.length = 17 ∧
      commentedClass.uncommented.root.descendants.length = 14 ∧
      (aggregate "metrics" commentedClass).1 =
        [⟨"A", 2, 1, 2, 1, 2, ⟨0x4000000000000000⟩, ⟨0x4000000000000000⟩⟩] ∧
      (aggregate "metrics" commentedClass.uncommented).1 =
        [⟨"A", 2, 1, 1, 1, 2, ⟨0x4000000000000000⟩, ⟨0x4000000000000000⟩⟩] ∧
      CommentAccount "metrics" commentedClass commentedClass.uncommented := by
  have hbare : commentedClass.root.BareComments := by decide +kernel
  refine ⟨hbare, ?_, ?_, ?_, ?_, comments_change_only_loc "metrics" commentedClass hbare⟩
  · decide +kernel
  · decide +kernel
  · decide +kernel
  · decide +kernel

end JavaMetrics.Metrics
