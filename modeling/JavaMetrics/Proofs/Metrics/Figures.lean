import JavaMetrics.Metrics.Aggregate
import Mathlib.Algebra.BigOperators.Ring.Finset
import Mathlib.Algebra.Order.BigOperators.Group.List
import Mathlib.Algebra.Order.Group.Int
import Mathlib.Data.List.Flatten

/-!
# The figures of records

A record that is made at all has the figures it was made from: `Sums` lists them,
and `compute_ok` says that the record of a type has them for the methods that
contribute to it. Everything said about records elsewhere goes through it, so
that the rules by which a record may be refused are looked at here only.

The records of a unit are the records of its types (`records_aggregate`); those of
the top-level types and those of the member types together are all of them
(`topLevel_append_nested_perm`).
-/

namespace JavaMetrics.Metrics

open Java (CompilationUnit TypeDeclaration Method)

theorem sum_natCast {α : Type} (f : α → Nat) (values : List α) :
    (values.map fun v => (f v : Int)).sum = ((values.map f).sum : Nat) := by
  rw [Nat.cast_list_sum, List.map_map]
  rfl

namespace Record

theorem total_eq_sum (values : List Int) : total values = values.sum := by
  induction values with
  | nil => rfl
  | cons first rest ih => rw [total, ih, List.sum_cons]

theorem maximum_spec (first : Int) (rest : List Int) :
    maximum (first :: rest) ∈ first :: rest ∧
      ∀ v ∈ first :: rest, v ≤ maximum (first :: rest) :=
  List.max?_eq_some_iff.mp List.max?_cons'

theorem le_maximum {values : List Int} {v : Int} (h : v ∈ values) : v ≤ maximum values := by
  cases values with
  | nil => cases h
  | cons first rest => exact (maximum_spec first rest).2 v h

theorem maximum_le {values : List Int} {bound : Int} (hbound : 0 ≤ bound)
    (h : ∀ v ∈ values, v ≤ bound) : maximum values ≤ bound := by
  cases values with
  | nil => exact hbound
  | cons first rest => exact h _ (maximum_spec first rest).1

theorem maximum_nonneg {values : List Int} (h : ∀ v ∈ values, 0 ≤ v) : 0 ≤ maximum values := by
  cases values with
  | nil => exact le_refl _
  | cons first rest => exact h _ (maximum_spec first rest).1

/-- Are the figures about complexity those of methods with these complexities? -/
structure Sums (record : Record) (complexities : List Int) : Prop where
  wmc : record.wmc = complexities.sum
  methodCount : record.methodCount = complexities.length
  maxCc : record.maxCc = maximum complexities
  amc : mean complexities = .ok record.amc
  avgCc : record.avgCc = record.amc

theorem validate_ok {record valid : Record} (h : record.validate = .ok valid) :
    valid = record ∧ record.fault? = none := by
  rw [validate] at h
  split at h
  · cases h
  · next hfault =>
      injection h with h
      exact ⟨h.symm, hfault⟩

theorem ofComplexities_ok {name : String} {complexities : List Int} {npm loc : Int}
    {record : Record} (h : ofComplexities name complexities npm loc = .ok record) :
    record.name = name ∧ record.npm = npm ∧ record.loc = loc ∧ record.Sums complexities := by
  rw [ofComplexities] at h
  cases hmean : mean complexities with
  | error fault =>
      rw [hmean] at h
      cases h
  | ok average =>
      rw [hmean] at h
      obtain ⟨rfl, -⟩ := validate_ok h
      exact ⟨rfl, rfl, rfl, total_eq_sum _, rfl, rfl, hmean, rfl⟩

end Record

/-- The complexities of the methods that contribute to a type. -/
def complexities (unit : CompilationUnit) (type : TypeDeclaration) : List Int :=
  (contributing unit type).map fun m => (complexity m : Int)

theorem compute_ok {unit : CompilationUnit} {name : String} {type : TypeDeclaration}
    {record : Record} (h : compute unit name type = .ok record) :
    record.name = name ∧ record.npm = publicMethods type ∧ record.loc = typeLoc unit type ∧
      record.Sums (complexities unit type) :=
  Record.ofComplexities_ok h

theorem sums_of_compute_topLevel {unit : CompilationUnit} {name : String}
    {type : TypeDeclaration} {record : Record} (htop : type.isTopLevel = true)
    (h : compute unit name type = .ok record) :
    record.Sums (unit.fileMethods.map fun m => (complexity m : Int)) := by
  have hsums := (compute_ok h).2.2.2
  rwa [complexities, contributing, if_pos htop] at hsums

theorem sums_of_compute_nested {unit : CompilationUnit} {name : String}
    {type : TypeDeclaration} {record : Record} (hnested : type.isTopLevel = false)
    (h : compute unit name type = .ok record) :
    record.Sums (type.methods.map fun m => (complexity m : Int)) := by
  have hsums := (compute_ok h).2.2.2
  rwa [complexities, contributing, if_neg (by simp [hnested])] at hsums

/-! ## The records of some types -/

/-- The records of some types of a unit, without those that have none. -/
def recordsOfTypes (unit : CompilationUnit) (types : List (String × TypeDeclaration)) :
    List Record :=
  types.filterMap fun (name, type) => (compute unit name type).toOption

/-- The records of the types that are not members of other types. -/
def topLevelRecords (unit : CompilationUnit) : List Record :=
  recordsOfTypes unit (unit.enumerate.filter (·.2.isTopLevel))

/-- The records of the member types. -/
def nestedRecords (unit : CompilationUnit) : List Record :=
  recordsOfTypes unit (unit.enumerate.filter (!·.2.isTopLevel))

theorem recordsOfTypes_cons (unit : CompilationUnit) (name : String) (type : TypeDeclaration)
    (rest : List (String × TypeDeclaration)) :
    recordsOfTypes unit ((name, type) :: rest) =
      (compute unit name type).toOption.toList ++ recordsOfTypes unit rest := by
  rw [recordsOfTypes, recordsOfTypes, List.filterMap_cons]
  simp only []
  cases (compute unit name type).toOption with
  | none => rfl
  | some record => rfl

theorem records_aggregate (logger : String) (unit : CompilationUnit) :
    (aggregate logger unit).1 = recordsOfTypes unit unit.enumerate := by
  rw [aggregate, recordsOf, outcomes, List.filterMap_map]
  rfl

theorem topLevel_append_nested_perm (logger : String) (unit : CompilationUnit) :
    (topLevelRecords unit ++ nestedRecords unit).Perm (aggregate logger unit).1 := by
  rw [records_aggregate, topLevelRecords, nestedRecords, recordsOfTypes, recordsOfTypes,
    ← List.filterMap_append]
  exact (List.filter_append_perm _ _).filterMap _

theorem mem_recordsOfTypes {unit : CompilationUnit} {types : List (String × TypeDeclaration)}
    {record : Record} :
    record ∈ recordsOfTypes unit types ↔
      ∃ name type, (name, type) ∈ types ∧ compute unit name type = .ok record := by
  rw [recordsOfTypes, List.mem_filterMap]
  constructor
  · rintro ⟨⟨name, type⟩, hmem, hrecord⟩
    refine ⟨name, type, hmem, ?_⟩
    simp only [] at hrecord
    cases h : compute unit name type with
    | error fault => rw [h] at hrecord; cases hrecord
    | ok made =>
        rw [h] at hrecord
        injection hrecord with hrecord
        rw [hrecord]
  · rintro ⟨name, type, hmem, hrecord⟩
    exact ⟨(name, type), hmem, by simp only [hrecord]; rfl⟩

theorem mem_topLevelRecords {unit : CompilationUnit} {record : Record} :
    record ∈ topLevelRecords unit ↔
      ∃ name type, (name, type) ∈ unit.enumerate ∧ type.isTopLevel = true ∧
        compute unit name type = .ok record := by
  simp only [topLevelRecords, mem_recordsOfTypes, List.mem_filter, and_assoc]

theorem mem_nestedRecords {unit : CompilationUnit} {record : Record} :
    record ∈ nestedRecords unit ↔
      ∃ name type, (name, type) ∈ unit.enumerate ∧ type.isTopLevel = false ∧
        compute unit name type = .ok record := by
  simp only [nestedRecords, mem_recordsOfTypes, List.mem_filter, and_assoc, Bool.not_eq_true']

theorem sums_of_topLevel {unit : CompilationUnit} {record : Record}
    (h : record ∈ topLevelRecords unit) :
    record.Sums (unit.fileMethods.map fun m => (complexity m : Int)) := by
  obtain ⟨name, type, -, htop, hcompute⟩ := mem_topLevelRecords.mp h
  exact sums_of_compute_topLevel htop hcompute

end JavaMetrics.Metrics
