import JavaMetrics.Proofs.Metrics.Figures
import JavaMetrics.Proofs.Number.Quotient
import Mathlib.Algebra.Order.GroupWithZero.Basic
import Mathlib.Algebra.Order.Ring.Nat

/-!
# Every type with a name has a record

A record is refused for one of many reasons: an empty name, a negative figure, a
sum below the maximum, means that differ, complexity without methods, a mean
beyond the largest number. For the figures of a type all but the first are out of
the question, whatever its tree looks like (`compute_error_iff`): complexities
are not negative, so no figure is and their sum is at least the largest of them,
and a sum below `2 ^ 1023` has a mean.

What is left is the name. A tree from a source that could not be read cleanly may
hold types without one. They are left out one by one: the list of types does not
depend on which of them have a record, so the types in them and after them keep
theirs (`TypeAccount`).
-/

namespace JavaMetrics.Metrics

open Java
open Number (twoPow lt_twoPow Binary64)

/-! ## Records that are not refused -/

namespace Record

theorem mean_ok {values : List Int} (hpos : ∀ v ∈ values, 0 ≤ v)
    (hsum : values.sum.natAbs < twoPow 1023) :
    ∃ average, mean values = .ok average ∧ average.isNaN = false ∧
      (values = [] → average = Binary64.zero) := by
  cases values with
  | nil => exact ⟨Binary64.zero, rfl, by decide, fun _ => rfl⟩
  | cons first rest =>
      have hlength : 0 < (first :: rest).length := by simp
      obtain ⟨average, haverage, hnan⟩ :=
        Binary64.ofRatio?_of_lt (decide ((first :: rest).sum < 0)) hsum hlength
      refine ⟨average, ?_, hnan, by simp⟩
      rw [mean, if_neg (by simp), total_eq_sum]
      simp only [haverage]

theorem maximum_le_sum {values : List Int} (hpos : ∀ v ∈ values, 0 ≤ v) :
    maximum values ≤ values.sum :=
  maximum_le (List.sum_nonneg hpos) fun v hv => List.single_le_sum hpos v hv

theorem fault?_of_nameless {record : Record} (hname : record.name = "") :
    record.fault? = some .emptyName := by
  rw [fault?, if_pos (by simp [hname])]

/-- The figures of a record that has a name, if they break no rule. -/
theorem fault?_eq_none {record : Record} (hname : record.name ≠ "")
    (hfigures : ∀ figure, 0 ≤ record.figure figure) (hmax : record.maxCc ≤ record.wmc)
    (hmeans : record.amc.same record.avgCc = true)
    (hnone : record.methodCount = 0 → record.hasComplexity = false) : record.fault? = none := by
  have hfind : Figure.all.find? (fun figure => decide (record.figure figure < 0)) = none := by
    rw [List.find?_eq_none]
    intro figure _
    simpa using hfigures figure
  rw [fault?, if_neg (by simpa using hname), hfind]
  simp only []
  rw [if_neg (by omega), if_neg (by simp [hmeans]), if_neg]
  rw [Bool.and_eq_true, decide_eq_true_eq]
  rintro ⟨hcount, hsome⟩
  rw [hnone hcount] at hsome
  cases hsome

theorem ofComplexities_error_iff {name : String} {complexities : List Int} {npm loc : Int}
    {fault : RecordFault} (hpos : ∀ c ∈ complexities, 0 ≤ c)
    (hsum : complexities.sum.natAbs < twoPow 1023) (hnpm : 0 ≤ npm) (hloc : 0 ≤ loc) :
    ofComplexities name complexities npm loc = .error fault ↔
      name = "" ∧ fault = .emptyName := by
  obtain ⟨average, hmean, hnan, hzero⟩ := mean_ok hpos hsum
  rw [ofComplexities, hmean]
  change validate _ = _ ↔ _
  rw [validate]
  by_cases hname : name = ""
  · rw [fault?_of_nameless hname]
    simp only [Except.error.injEq]
    constructor
    · intro h
      exact ⟨hname, h.symm⟩
    · rintro ⟨-, rfl⟩
      rfl
  · rw [fault?_eq_none hname]
    · simp [hname]
    · intro figure
      cases figure with
      | wmc => exact (total_eq_sum complexities).symm ▸ List.sum_nonneg hpos
      | npm => exact hnpm
      | loc => exact hloc
      | methodCount => exact Int.natCast_nonneg _
      | maxCc => exact maximum_nonneg hpos
    · exact (total_eq_sum complexities).symm ▸ maximum_le_sum hpos
    · exact Binary64.same_self hnan
    · intro hcount
      have hempty : complexities = [] := List.eq_nil_of_length_eq_zero (Int.ofNat_eq_zero.mp hcount)
      subst hempty
      simp [hasComplexity, total, maximum, hzero rfl, Binary64.isZero, Binary64.magnitude,
        Binary64.zero]

end Record

theorem compute_error_iff {unit : CompilationUnit} {name : String} {type : TypeDeclaration}
    {fault : RecordFault} (h : ((contributing unit type).map complexity).sum < 2 ^ 1023) :
    compute unit name type = .error fault ↔ name = "" ∧ fault = .emptyName := by
  rw [compute]
  apply Record.ofComplexities_error_iff
  · simp
  · rw [sum_natCast, Int.natAbs_natCast]
    exact lt_twoPow (n := 1023) h
  · exact Int.natCast_nonneg _
  · exact Int.natCast_nonneg _

theorem compute_of_named {unit : CompilationUnit} {name : String} {type : TypeDeclaration}
    (h : ((contributing unit type).map complexity).sum < 2 ^ 1023) (hname : name ≠ "") :
    ∃ record, compute unit name type = .ok record := by
  cases hcompute : compute unit name type with
  | ok record => exact ⟨record, rfl⟩
  | error fault => exact absurd ((compute_error_iff h).mp hcompute).1 hname

/-! ## What a record holds -/

/-- Is the method written with the keyword `public`? It stands among the anonymous children of the
first list of modifiers. -/
def WrittenPublic (method : Method) : Prop :=
  ∃ modifiers ∈ method.node.children.find? (·.kind == "modifiers"),
    ∃ keyword ∈ modifiers.children, keyword.named = false ∧ keyword.kind = "public"

instance (method : Method) : Decidable (WrittenPublic method) :=
  inferInstanceAs (Decidable (∃ modifiers ∈ method.node.children.find? _, _))

theorem isPublic_iff (method : Method) : method.isPublic = true ↔ WrittenPublic method := by
  rw [Method.isPublic, Method.modifiers, WrittenPublic]
  cases method.node.children.find? (·.kind == "modifiers") with
  | none => simp
  | some modifiers =>
      simp only [List.contains_iff_mem, List.mem_map, List.mem_filter, Bool.not_eq_true',
        Option.mem_def, Option.some.injEq, exists_eq_left', and_assoc]

/-- Is the value the largest of some numbers, or zero if there are none? -/
def IsMaximum (values : List Nat) (value : Int) : Prop :=
  if values = [] then value = 0
  else (∃ v ∈ values, (v : Int) = value) ∧ ∀ v ∈ values, (v : Int) ≤ value

theorem isMaximum_maximum (values : List Nat) :
    IsMaximum values (Record.maximum (values.map Nat.cast)) := by
  rw [IsMaximum]
  cases values with
  | nil => rfl
  | cons first rest =>
      rw [if_neg (by simp)]
      obtain ⟨hmem, hle⟩ := Record.maximum_spec (first : Int) (rest.map Nat.cast)
      rw [← List.map_cons] at hmem hle
      constructor
      · obtain ⟨v, hv, hvalue⟩ := List.mem_map.mp hmem
        exact ⟨v, hv, hvalue⟩
      · intro v hv
        exact hle _ (List.mem_map_of_mem hv)

/-- Does the record hold the complexities of these methods? -/
structure SumsUp (methods : List Method) (record : Record) : Prop where
  wmc : record.wmc = (methods.map complexity).sum
  methodCount : record.methodCount = methods.length
  maxCc : IsMaximum (methods.map complexity) record.maxCc

/-- Does the record hold the figures of a type that is listed under a name? -/
structure Describes (unit : CompilationUnit) (listed : String × TypeDeclaration)
    (record : Record) : Prop where
  name : record.name = listed.1
  /-- A type that is no member has all methods of the file. -/
  topLevel : listed.2.outer = none → SumsUp unit.fileMethods record
  /-- A member has its own methods. -/
  nested : listed.2.outer ≠ none → SumsUp listed.2.methods record
  npm : record.npm = listed.2.methods.countP fun m => decide (WrittenPublic m)
  loc : ∀ start length, listed.2.span unit.code = (start, length) →
    record.loc =
      Loc.countRange unit.lines (unit.lineOf start) (unit.lineOf (start + length - 1))

theorem sumsUp_of_sums {methods : List Method} {record : Record}
    (h : record.Sums (methods.map fun m => (complexity m : Int))) : SumsUp methods record where
  wmc := by rw [h.wmc, sum_natCast]
  methodCount := by rw [h.methodCount, List.length_map]
  maxCc := by
    have hmax := isMaximum_maximum (methods.map complexity)
    rw [List.map_map] at hmax
    rw [h.maxCc]
    exact hmax

theorem describes_of_compute {unit : CompilationUnit} {name : String} {type : TypeDeclaration}
    {record : Record} (h : compute unit name type = .ok record) :
    Describes unit (name, type) record := by
  obtain ⟨hname, hnpm, hloc, -⟩ := compute_ok h
  refine ⟨hname, ?_, ?_, ?_, ?_⟩
  · intro houter
    exact sumsUp_of_sums (sums_of_compute_topLevel (Option.isNone_iff_eq_none.mpr houter) h)
  · intro houter
    exact sumsUp_of_sums (sums_of_compute_nested (Option.isNone_eq_false_iff.mpr
      (Option.isSome_iff_ne_none.mpr houter)) h)
  · rw [hnpm, publicMethods, ← List.countP_eq_length_filter]
    congr 1
    apply List.countP_congr
    intro m _
    rw [isPublic_iff, decide_eq_true_iff]
  · intro start length hspan
    simp only [] at hspan
    rw [hloc, typeLoc, hspan]

/-- One record for each type that has a name, in the order of the types. -/
theorem describes_recordsOfTypes {unit : CompilationUnit}
    {types : List (String × TypeDeclaration)}
    (h : ∀ name type, (name, type) ∈ types →
      ((contributing unit type).map complexity).sum < 2 ^ 1023) :
    List.Forall₂ (Describes unit) (types.filter fun listed => decide (listed.1 ≠ ""))
      (recordsOfTypes unit types) := by
  induction types with
  | nil => exact .nil
  | cons listed rest ih =>
      obtain ⟨name, type⟩ := listed
      have hsum := h name type List.mem_cons_self
      have hrest := ih fun n t hmem => h n t (List.mem_cons_of_mem _ hmem)
      rw [recordsOfTypes_cons, List.filter_cons]
      by_cases hname : name = ""
      · rw [(compute_error_iff hsum).mpr ⟨hname, rfl⟩, if_neg (by simp [hname])]
        exact hrest
      · obtain ⟨record, hrecord⟩ := compute_of_named hsum hname
        rw [hrecord, if_pos (by simp [hname])]
        exact .cons (describes_of_compute hrecord) hrest

/-! ## Names and members of listed types -/

theorem qualifiedName_eq_empty_iff {package simple : String} {outer : Option String} :
    qualifiedName package simple outer = "" ↔
      package = "" ∧ simple = "" ∧ (outer = none ∨ outer = some "") := by
  unfold qualifiedName
  by_cases hpackage : package = ""
  · cases outer with
    | none => simp [hpackage]
    | some outer =>
        by_cases houter : outer = ""
        · simp [hpackage, houter]
        · simp [hpackage, houter]
  · simp [hpackage]

theorem mem_enumerateStack_of_mem (code : List UInt8) (package : String)
    {stack : List TypeDeclaration} {type : TypeDeclaration} (h : type ∈ stack) :
    (qualifiedName package (type.name code) type.outer, type) ∈
      enumerateStack code package stack := by
  fun_induction enumerateStack code package stack with
  | case1 => cases h
  | case2 first rest ih =>
      rcases List.mem_cons.mp h with rfl | hrest
      · exact List.mem_cons_self
      · exact List.mem_cons_of_mem _ (ih (List.mem_append_right _ hrest))

/-- A listed type is listed under its qualified name, and so are its members. -/
theorem of_mem_enumerateStack {code : List UInt8} {package name : String}
    {stack : List TypeDeclaration} {type : TypeDeclaration}
    (h : (name, type) ∈ enumerateStack code package stack) :
    name = qualifiedName package (type.name code) type.outer ∧
      ∀ inner ∈ type.nested code,
        (qualifiedName package (inner.name code) inner.outer, inner) ∈
          enumerateStack code package stack := by
  fun_induction enumerateStack code package stack with
  | case1 => cases h
  | case2 first rest ih =>
      rcases List.mem_cons.mp h with heq | hrest
      · obtain ⟨rfl, rfl⟩ := Prod.mk.inj heq
        refine ⟨rfl, ?_⟩
        intro inner hinner
        exact List.mem_cons_of_mem _ (mem_enumerateStack_of_mem _ _ (List.mem_append_left _ hinner))
      · obtain ⟨hname, hmembers⟩ := ih hrest
        exact ⟨hname, fun inner hinner => List.mem_cons_of_mem _ (hmembers inner hinner)⟩

theorem outer_of_mem_typeDeclarations {outer : Option String} {nodes : List Placed}
    {type : TypeDeclaration} (h : type ∈ typeDeclarations outer nodes) : type.outer = outer := by
  rw [typeDeclarations, List.mem_filterMap] at h
  obtain ⟨placed, -, htype⟩ := h
  obtain ⟨kind, -, rfl⟩ := Option.map_eq_some_iff.mp htype
  rfl

/-! ## All types of a unit -/

/-- Which types of a unit have a record, what it holds, and what is logged. -/
structure TypeAccount (logger : String) (unit : CompilationUnit) : Prop where
  /-- The only reason for which a listed type has no record is that its name is empty. -/
  refused : ∀ name type, (name, type) ∈ unit.enumerate → ∀ fault,
    compute unit name type = .error fault ↔ name = "" ∧ fault = .emptyName
  /-- Every other type has one record, and the records are in the order of the types. -/
  records : List.Forall₂ (Describes unit)
    (unit.enumerate.filter fun listed => decide (listed.1 ≠ "")) (aggregate logger unit).1
  /-- Every type is logged once, under its name. -/
  events : (aggregate logger unit).2 = unit.enumerate.map fun listed =>
    if listed.1 = "" then
      ⟨.error, logger, s!"Error calculating metrics for {listed.1}: name must not be empty"⟩
    else ⟨.info, logger, s!"  - {listed.1}"⟩
  /-- When the name under which a type is listed is empty. -/
  nameless : ∀ name type, (name, type) ∈ unit.enumerate →
    (name = "" ↔ unit.packageName = "" ∧ type.name unit.code = "" ∧
      (type.outer = none ∨ type.outer = some ""))
  /-- The types that are not members are listed, all of them. -/
  topLevel : ∀ type ∈ unit.types, type.outer = none ∧
    (qualifiedName unit.packageName (type.name unit.code) none, type) ∈ unit.enumerate
  /-- The members of a type are listed, whether it has a record or not. -/
  members : ∀ name type, (name, type) ∈ unit.enumerate → ∀ inner ∈ type.nested unit.code,
    inner.outer = some (type.name unit.code) ∧
      (qualifiedName unit.packageName (inner.name unit.code) (some (type.name unit.code)), inner) ∈
        unit.enumerate

/-- Of the types of any unit exactly those with an empty name are left out, one by one and with a
word in the log; every other type has its record. -/
theorem records_of_named_types (logger : String) (unit : CompilationUnit)
    (hmeans : ∀ name type, (name, type) ∈ unit.enumerate →
      ((contributing unit type).map complexity).sum < 2 ^ 1023) : TypeAccount logger unit where
  refused name type hmem fault := compute_error_iff (hmeans name type hmem)
  records := by
    rw [records_aggregate]
    exact describes_recordsOfTypes hmeans
  events := by
    rw [aggregate, outcomes, List.map_map]
    apply List.map_congr_left
    intro listed hmem
    obtain ⟨name, type⟩ := listed
    have hsum := hmeans name type hmem
    simp only [Function.comp]
    by_cases hname : name = ""
    · rw [(compute_error_iff hsum).mpr ⟨hname, rfl⟩, if_pos hname, outcomeEvent,
        RecordFault.message, hname]
      rfl
    · obtain ⟨record, hrecord⟩ := compute_of_named hsum hname
      rw [hrecord, if_neg hname]
      rfl
  nameless name type hmem := by
    rw [(of_mem_enumerateStack hmem).1]
    exact qualifiedName_eq_empty_iff
  topLevel type hmem := by
    have houter := outer_of_mem_typeDeclarations hmem
    have hlisted := mem_enumerateStack_of_mem unit.code unit.packageName hmem
    rw [houter] at hlisted
    exact ⟨houter, hlisted⟩
  members name type hmem inner hinner := by
    have houter := outer_of_mem_typeDeclarations hinner
    have hlisted := (of_mem_enumerateStack hmem).2 inner hinner
    rw [houter] at hlisted
    exact ⟨houter, hlisted⟩

/-- A class whose name could not be read, with a member class that has a public method with a
branch; after it a second class without members. -/
def namelessOuter : CompilationUnit where
  path := "A.java"
  text := "AB"
  code := [65, 66]
  root := { kind := "program", start := 0, stop := 2, children := [
    { kind := "class_declaration", start := 0, stop := 1, children := [
      { kind := "class_body", field := some .body, start := 0, stop := 1, children := [
        { kind := "class_declaration", start := 0, stop := 1, children := [
          { kind := "identifier", field := some .name, start := 0, stop := 1 },
          { kind := "class_body", field := some .body, start := 1, stop := 1, children := [
            { kind := "method_declaration", start := 1, stop := 1, children := [
              { kind := "modifiers", start := 1, stop := 1, children := [
                { kind := "public", named := false, start := 1, stop := 1 }] },
              { kind := "block", field := some .body, start := 1, stop := 1, children := [
                { kind := "if_statement", start := 1, stop := 1 }] }] }] }] }] }] },
    { kind := "class_declaration", start := 1, stop := 2, children := [
      { kind := "identifier", field := some .name, start := 1, stop := 2 }] }] }

theorem listed_namelessOuter :
    namelessOuter.enumerate.map (fun listed =>
      (listed.1, ((contributing namelessOuter listed.2).map complexity).sum)) =
        [("", 2), ("A", 2), ("B", 2)] := by
  simp [namelessOuter, CompilationUnit.enumerate, CompilationUnit.types, enumerateStack,
    CompilationUnit.packageName, typeDeclarations, placedChildren, placeFrom, members,
    TypeDeclaration.nested, TypeDeclaration.methods, TypeDeclaration.name, declaredName,
    Node.namedChildren, Node.child?, TypeKind.ofNodeKind?, qualifiedName,
    contributing, TypeDeclaration.isTopLevel, CompilationUnit.fileMethods, Node.walk,
    Node.walkStack, isMethod, complexity, Method.body?, decisionPoints, Node.descendants,
    isDecision, branchKinds, isShortCircuit, Node.text, slice, Text.Utf8.decode,
    Text.Utf8.decodeFrom, Text.Utf8.first]

theorem records_of_nameless_outer :
    namelessOuter.enumerate.map (·.1) = ["", "A", "B"] ∧
      (∀ name type, (name, type) ∈ namelessOuter.enumerate →
        ((contributing namelessOuter type).map complexity).sum = 2) ∧
      TypeAccount "metrics" namelessOuter := by
  have hsums : ∀ name type, (name, type) ∈ namelessOuter.enumerate →
      ((contributing namelessOuter type).map complexity).sum = 2 := by
    intro name type hmem
    have hlisted := List.mem_map_of_mem (f := fun listed : String × TypeDeclaration =>
      (listed.1, ((contributing namelessOuter listed.2).map complexity).sum)) hmem
    rw [listed_namelessOuter] at hlisted
    simp only [List.mem_cons, Prod.mk.injEq, List.not_mem_nil, or_false] at hlisted
    omega
  refine ⟨?_, hsums, records_of_named_types _ _ ?_⟩
  · have hnames := congrArg (List.map Prod.fst) listed_namelessOuter
    rwa [List.map_map] at hnames
  · intro name type hmem
    rw [hsums name type hmem]
    exact lt_of_lt_of_le (by decide : 2 < 2 ^ 2) (pow_le_pow_right₀ one_le_two (by decide))

end JavaMetrics.Metrics
