import JavaMetrics.Proofs.Metrics.Figures
import JavaMetrics.Proofs.Number.Nearest
import Mathlib.Data.List.TFAE

/-!
# What the figures about complexity have to do with each other

When a record is made, its sum is compared with its maximum and its figures with
zero if there are no methods; nothing else is looked at. More holds of every record
of a type, whatever its tree looks like, because of one fact: no method has a
complexity below one (`one_le_complexity`). Every further method therefore adds at
least one to the sum and at most the maximum, and a figure is zero only if there is
no method at all.

The mean is the quotient of the sum by the number of methods, rounded once. The
quotient lies between one and the maximum, and so the rounded mean is not zero
either.
-/

namespace JavaMetrics.Metrics

open Java (CompilationUnit TypeDeclaration Method)
open Number (Binary64)

theorem one_le_complexity (method : Method) : 1 ≤ complexity method := by
  unfold complexity
  split <;> omega

theorem one_le_of_mem_complexities {unit : CompilationUnit} {type : TypeDeclaration} {c : Int}
    (h : c ∈ complexities unit type) : 1 ≤ c := by
  obtain ⟨method, -, rfl⟩ := List.mem_map.mp h
  have := one_le_complexity method
  show (1 : Int) ≤ (complexity method : Int)
  omega

/-! ## Lists of numbers that are at least one -/

namespace Record

section

variable {values : List Int} (h : ∀ v ∈ values, 1 ≤ v)

include h

theorem length_le_sum : (values.length : Int) ≤ values.sum := by
  have hle := List.card_nsmul_le_sum values 1 h
  rwa [nsmul_one] at hle

theorem maximum_add_length_le_sum (hne : values ≠ []) :
    maximum values + (values.length - 1) ≤ values.sum := by
  obtain ⟨first, rest, hcons⟩ := List.exists_cons_of_ne_nil hne
  have hmem : maximum values ∈ values := by
    rw [hcons]
    exact (maximum_spec first rest).1
  -- the largest value apart, each of the others adds at least one
  have hperm := List.perm_cons_erase hmem
  have hothers : ∀ v ∈ values.erase (maximum values), 1 ≤ v := fun v hv =>
    h v (List.mem_of_mem_erase hv)
  have hrest := length_le_sum hothers
  have hsum := hperm.sum_eq
  have hlength := hperm.length_eq
  rw [List.sum_cons] at hsum
  rw [List.length_cons] at hlength
  omega

theorem one_le_maximum (hne : values ≠ []) : 1 ≤ maximum values := by
  obtain ⟨first, rest, rfl⟩ := List.exists_cons_of_ne_nil hne
  exact h _ (maximum_spec first rest).1

end

theorem sum_le_length_mul_maximum (values : List Int) :
    values.sum ≤ values.length * maximum values := by
  have hle := List.sum_le_card_nsmul values (maximum values) fun v hv => le_maximum hv
  rwa [nsmul_eq_mul] at hle

/-- The mean of some values is their quotient, rounded. -/
theorem isNearest_of_mean {values : List Int} {average : Binary64} (hne : values ≠ [])
    (hsum : 0 ≤ values.sum) (hmean : mean values = .ok average) :
    average.IsNearest ((values.sum : ℚ) / (values.length : Int)) := by
  rw [mean, if_neg (by simpa using hne), total_eq_sum] at hmean
  dsimp only at hmean
  rw [decide_eq_false (by omega)] at hmean
  split at hmean
  · next found hratio =>
      injection hmean with hmean
      rw [hmean] at hratio
      have hnearest := Binary64.isNearest_of_ofRatio? (List.length_pos_of_ne_nil hne) hratio
      rwa [Nat.cast_natAbs, abs_of_nonneg hsum] at hnearest
  · cases hmean

end Record

/-! ## The figures of a record -/

/-- Do the figures about complexity fit together as those of some methods do? -/
structure ComplexityFigures (record : Record) : Prop where
  count_le : record.methodCount ≤ record.wmc
  wmc_le : record.wmc ≤ record.methodCount * record.maxCc
  max_le : 0 < record.methodCount → record.maxCc ≤ record.wmc - (record.methodCount - 1)
  zeros : [record.methodCount = 0, record.wmc = 0, record.maxCc = 0,
    record.amc.same Binary64.zero = true].TFAE
  means : record.avgCc = record.amc ∧ record.avgCc.same record.amc = true
  /-- The quotient lies between one and the maximum, and the mean is the number nearest to it. -/
  mean : 0 < record.methodCount →
    1 ≤ (record.wmc : ℚ) / record.methodCount ∧
      (record.wmc : ℚ) / record.methodCount ≤ record.maxCc ∧
        record.amc.IsNearest ((record.wmc : ℚ) / record.methodCount)

theorem quotient_bounds {sum count largest : Int} (hcount : 0 < count) (hle : count ≤ sum)
    (hsum : sum ≤ count * largest) : 1 ≤ (sum : ℚ) / count ∧ (sum : ℚ) / count ≤ largest := by
  have hpos : (0 : ℚ) < count := Int.cast_pos.mpr hcount
  rw [one_le_div hpos, div_le_iff₀ hpos, mul_comm]
  exact ⟨by exact_mod_cast hle, by exact_mod_cast hsum⟩

theorem complexityFigures_of_nil {record : Record} (h : record.Sums []) :
    ComplexityFigures record := by
  have hwmc : record.wmc = 0 := h.wmc
  have hcount : record.methodCount = 0 := h.methodCount
  have hmax : record.maxCc = 0 := h.maxCc
  have hamc : record.amc = Binary64.zero := by
    have hmean := h.amc
    injection hmean with hmean
    exact hmean.symm
  have havg : record.avgCc = Binary64.zero := by rw [h.avgCc, hamc]
  have hsame : Binary64.zero.same Binary64.zero = true := by decide
  refine ⟨by omega, ?_, by omega, ?_, ?_, by omega⟩
  · rw [hwmc, hcount, Int.zero_mul]
  · apply List.tfae_of_forall True
    simp [hwmc, hcount, hmax, hamc, hsame]
  · rw [havg, hamc]
    exact ⟨rfl, hsame⟩

theorem complexityFigures_of_ne_nil {record : Record} {values : List Int} (hne : values ≠ [])
    (hpos : ∀ v ∈ values, 1 ≤ v) (h : record.Sums values) : ComplexityFigures record := by
  have hlength : 0 < record.methodCount := by
    rw [h.methodCount]
    exact Int.natCast_pos.mpr (List.length_pos_of_ne_nil hne)
  have hcount : record.methodCount ≤ record.wmc := by
    rw [h.methodCount, h.wmc]
    exact Record.length_le_sum hpos
  have hproduct : record.wmc ≤ record.methodCount * record.maxCc := by
    rw [h.wmc, h.methodCount, h.maxCc]
    exact Record.sum_le_length_mul_maximum values
  have hsum := Record.maximum_add_length_le_sum hpos hne
  have hlargest := Record.one_le_maximum hpos hne
  rw [← h.maxCc] at hsum hlargest
  rw [← h.wmc, ← h.methodCount] at hsum
  have hquotient := quotient_bounds hlength hcount hproduct
  have hnearest : record.amc.IsNearest ((record.wmc : ℚ) / record.methodCount) := by
    rw [h.wmc, h.methodCount]
    exact Record.isNearest_of_mean hne (by rw [← h.wmc]; omega) h.amc
  have hnan := hnearest.isNaN_eq_false
  have hzero := hnearest.not_isZero hquotient.1
  refine ⟨hcount, hproduct, by omega, ?_, ?_, fun _ => ⟨hquotient.1, hquotient.2, hnearest⟩⟩
  · -- none of the four is zero
    have hamc : record.amc.same Binary64.zero = false := by
      have hne : record.amc ≠ Binary64.zero := by
        intro heq
        rw [heq] at hzero
        exact absurd hzero (by decide)
      simp [Binary64.same, hzero, hne]
    apply List.tfae_of_forall False
    have hcountNe : record.methodCount ≠ 0 := by omega
    have hwmcNe : record.wmc ≠ 0 := by omega
    have hmaxNe : record.maxCc ≠ 0 := by omega
    simp [hcountNe, hwmcNe, hmaxNe, hamc]
  · rw [h.avgCc]
    exact ⟨rfl, Binary64.same_self hnan⟩

/-- The figures about complexity of every record of a unit fit together. -/
theorem complexity_figures_fit (logger : String) (unit : CompilationUnit) (record : Record)
    (h : record ∈ (aggregate logger unit).1) : ComplexityFigures record := by
  rw [records_aggregate] at h
  obtain ⟨name, type, -, hcompute⟩ := mem_recordsOfTypes.mp h
  have hsums := (compute_ok hcompute).2.2.2
  by_cases hnil : complexities unit type = []
  · rw [hnil] at hsums
    exact complexityFigures_of_nil hsums
  · exact complexityFigures_of_ne_nil hnil (fun _ hc => one_le_of_mem_complexities hc) hsums

/-- A class with three methods, of which one has two decision points and another no body, and with a
member class that has none. -/
def unevenMethods : CompilationUnit where
  path := "A.java"
  text := "AB"
  code := [65, 66]
  root := { kind := "program", start := 0, stop := 2, children := [
    { kind := "class_declaration", start := 0, stop := 2, children := [
      { kind := "identifier", field := some .name, start := 0, stop := 1 },
      { kind := "class_body", field := some .body, start := 1, stop := 2, children := [
        { kind := "method_declaration", start := 1, stop := 1, children := [
          { kind := "block", field := some .body, start := 1, stop := 1, children := [
            { kind := "while_statement", start := 1, stop := 1, children := [
              { kind := "if_statement", start := 1, stop := 1 }] }] }] },
        { kind := "method_declaration", start := 1, stop := 1 },
        { kind := "constructor_declaration", start := 1, stop := 1, children := [
          { kind := "block", field := some .body, start := 1, stop := 1 }] },
        { kind := "class_declaration", start := 1, stop := 2, children := [
          { kind := "identifier", field := some .name, start := 1, stop := 2 }] }] }] }] }

/-- Five thirds, and nothing. -/
theorem complexity_figures_of_uneven_methods :
    (aggregate "metrics" unevenMethods).1 =
        [⟨"A", 5, 0, 1, 3, 3, ⟨0x3FFAAAAAAAAAAAAB⟩, ⟨0x3FFAAAAAAAAAAAAB⟩⟩,
          ⟨"A$B", 0, 0, 1, 0, 0, Binary64.zero, Binary64.zero⟩] ∧
      ComplexityFigures ⟨"A", 5, 0, 1, 3, 3, ⟨0x3FFAAAAAAAAAAAAB⟩, ⟨0x3FFAAAAAAAAAAAAB⟩⟩ ∧
      ComplexityFigures ⟨"A$B", 0, 0, 1, 0, 0, Binary64.zero, Binary64.zero⟩ := by
  have hrecords : (aggregate "metrics" unevenMethods).1 =
      [⟨"A", 5, 0, 1, 3, 3, ⟨0x3FFAAAAAAAAAAAAB⟩, ⟨0x3FFAAAAAAAAAAAAB⟩⟩,
        ⟨"A$B", 0, 0, 1, 0, 0, Binary64.zero, Binary64.zero⟩] := by
    decide +kernel
  refine ⟨hrecords, complexity_figures_fit "metrics" unevenMethods _ ?_,
    complexity_figures_fit "metrics" unevenMethods _ ?_⟩
  · rw [hrecords]
    exact List.mem_cons_self
  · rw [hrecords]
    exact List.mem_cons_of_mem _ List.mem_cons_self

end JavaMetrics.Metrics
