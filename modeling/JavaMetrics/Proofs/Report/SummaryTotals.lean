import JavaMetrics.Proofs.Metrics.Figures
import JavaMetrics.Proofs.Report.CsvReader
import JavaMetrics.Proofs.Report.Exports
import JavaMetrics.Proofs.Report.PlainFront
import JavaMetrics.Proofs.Report.StableSort
import JavaMetrics.Proofs.Text.Pieces
import JavaMetrics.Report.Summary
import JavaMetrics.Text.Digit

/-!
# The summary says what the table says

The summary and the table are made from the same records in two ways: figures of 64
bits on the one hand, text sorted by name on the other. Someone who adds up a column
of the table gets the total of the summary. For that the numbers in the table have to
be read (`readInteger_natCast`), sorting must not change their sum, and the total must
not wrap around, which is what the bound on the sum is for (`Countable.summarize_eq`).
-/

namespace JavaMetrics

/-! ## Numbers in writing -/

namespace Text

variable {c : Char} {cs : List Char}

theorem digitValue?_of_isDigit (h : c.isDigit = true) : digitValue? c = some (c.toNat - 48) := by
  obtain ⟨hlow, hhigh⟩ := Report.toNat_of_isDigit h
  have hbound : c.toNat < 58 := by omega
  have hfirst : zeros = 48 :: zeros.tail := rfl
  rw [digitValue?, hfirst]
  simp [hlow, hbound]

theorem isMargin_of_isDigit (h : c.isDigit = true) : isMargin c = false := by
  obtain ⟨hlow, hhigh⟩ := Report.toNat_of_isDigit h
  simp only [isMargin, isBlank, Bool.and_eq_false_iff, Bool.or_eq_false_iff,
    decide_eq_false_iff_not, beq_eq_false_iff_ne]
  omega

/-- Digits are read up to the end of the text. -/
theorem readDigits_of_isDigit (h : ∀ c ∈ cs, c.isDigit = true) {afterDigit : Bool}
    {digits : List Nat} (hend : (afterDigit || digits.isEmpty) = true) :
    readDigits afterDigit digits cs =
      some ((cs.map fun c => c.toNat - 48).reverse ++ digits, []) := by
  induction cs generalizing afterDigit digits with
  | nil => rw [readDigits, if_pos hend, List.map_nil, List.reverse_nil, List.nil_append]
  | cons c cs ih =>
      rw [List.forall_mem_cons] at h
      rw [readDigits, digitValue?_of_isDigit h.1]
      dsimp only
      rw [ih h.2 rfl, List.map_cons, List.reverse_cons, List.append_assoc, List.singleton_append]

theorem readSign_of_isDigit (h : ∀ c ∈ cs, c.isDigit = true) : readSign cs = (false, cs) := by
  unfold readSign
  split
  · exact absurd (h '-' List.mem_cons_self) (by decide)
  · exact absurd (h '+' List.mem_cons_self) (by decide)
  · rfl

/-- A number that is not too long is read as it was written. -/
theorem readInteger_natCast {n : Nat} (h : n < 10 ^ digitLimit) :
    readInteger (toString (n : Int)).toList = .ok (n : Int) := by
  have hwritten : (toString (n : Int)).toList = Nat.toDigits 10 n := Nat.toList_repr
  have hdigits : ∀ c ∈ Nat.toDigits 10 n, c.isDigit = true := fun c =>
    Nat.isDigit_of_mem_toDigits (by decide) (by decide)
  have hlength : (Nat.toDigits 10 n).length ≤ digitLimit :=
    (Nat.length_toDigits_le_iff (by decide) (by decide)).mpr h
  have hvalue : ((Nat.toDigits 10 n).map fun c => c.toNat - 48).foldl
      (fun n d => 10 * n + d) 0 = n := by
    rw [List.foldl_map]
    exact Nat.ofDigitChars_eq_foldl.symm.trans Nat.ofDigitChars_ten_toDigits
  have hmargins : ∀ c ∈ Nat.toDigits 10 n, isMargin c = false := fun c hmem =>
    isMargin_of_isDigit (hdigits c hmem)
  have htrim : trimBoth isMargin (Nat.toDigits 10 n) = Nat.toDigits 10 n :=
    trimBoth_eq_self (fun c hc => hmargins c (List.mem_of_mem_head? hc))
      fun c hc => hmargins c (List.mem_of_mem_getLast? hc)
  rw [hwritten, readInteger, htrim, readSign_of_isDigit hdigits]
  dsimp only
  rw [readDigits_of_isDigit hdigits rfl]
  dsimp only
  rw [List.append_nil, List.length_reverse, List.length_map, List.reverse_reverse, hvalue]
  rw [if_neg (by simp [Nat.toDigits_ne_nil]), if_neg (by omega)]
  rfl

end Text

namespace Report

open Files (Tree Path)
open Metrics (Record)

/-! ## Columns of a table -/

/-- What stands under a header of a table. -/
def column (header : String) (table : List (List String)) : List String :=
  (project [header] table).tail.flatten

theorem column_rows {layout : Layout} {header : String} (h : header ∈ layout.columns)
    (records : List Record) :
    column header (rows layout records) =
      (sortRecords records).map fun record => (cellOf record header).content := by
  have hfield : ∀ record, [header].filterMap
      (fun header => ((row layout record).map Cell.content)[layout.columns.idxOf header]?) =
        [(cellOf record header).content] := by
    intro record
    rw [row, List.map_map]
    exact filterMap_idxOf (by simpa using h) fun header => (cellOf record header).content
  simp only [column, project, rows, List.headD_cons, List.map_cons, List.map_map, List.tail_cons,
    Function.comp_def, hfield]
  exact List.map_eq_flatMap.symm

/-! ## The total -/

/-- The least count that does not fit into 64 bits with a sign. -/
def countLimit : Int := 2 ^ 63

theorem nonneg_of_fault? {record : Record} (h : record.fault? = none) :
    0 ≤ record.npm ∧ 0 ≤ record.loc := by
  rw [Record.fault?] at h
  split at h
  · cases h
  · split at h
    · cases h
    · next hnone =>
        have hfigure : ∀ figure ∈ Metrics.Figure.all, 0 ≤ record.figure figure := by
          intro figure hmem
          have := List.find?_eq_none.mp hnone figure hmem
          simpa using this
        exact ⟨hfigure .npm (by decide), hfigure .loc (by decide)⟩

theorem fits_of_lt {count : Int} (hnonneg : 0 ≤ count) (h : count < countLimit) :
    fits count = true := by
  rw [countLimit] at h
  simp only [fits, Bool.and_eq_true, decide_eq_true_iff]
  omega

theorem count_of_write {layout : Layout} {records : List Record} {path : Path} {tree : Tree}
    {count : Nat} (h : (write layout records path tree).2 = .ok count) :
    count = records.length := by
  rw [write] at h
  split at h
  · cases h
  · split at h
    · cases h
    · exact (Except.ok.inj h).symm

/-- Records whose figures can be kept in 64 bits, their total included. -/
structure Countable (records : List Record) : Prop where
  valid : ∀ record ∈ records, record.fault? = none
  npm_lt : ∀ record ∈ records, record.npm < countLimit
  sum_lt : (records.map Record.loc).sum < countLimit

namespace Countable

variable {records : List Record}

theorem loc_nonneg (h : Countable records) : ∀ loc ∈ records.map Record.loc, 0 ≤ loc := by
  rw [List.forall_mem_map]
  exact fun record hmem => (nonneg_of_fault? (h.valid record hmem)).2

theorem loc_lt (h : Countable records) {record : Record} (hmem : record ∈ records) :
    record.loc < countLimit :=
  Int.lt_of_le_of_lt (List.single_le_sum h.loc_nonneg _ (List.mem_map_of_mem hmem)) h.sum_lt

theorem of_perm (h : Countable records) {other : List Record} (hperm : other.Perm records) :
    Countable other where
  valid record hmem := h.valid record (hperm.subset hmem)
  npm_lt record hmem := h.npm_lt record (hperm.subset hmem)
  sum_lt := by
    rw [(hperm.map _).sum_eq]
    exact h.sum_lt

/-- The total does not wrap around. -/
theorem summarize_eq (h : Countable records) (hne : records ≠ []) :
    ∃ figures, summarize records = .ok figures ∧ figures.classes = records.length ∧
      figures.totalLoc = (records.map Record.loc).sum := by
  have hfits : (records.all fun record => fits record.npm && fits record.loc) = true := by
    refine List.all_eq_true.mpr fun record hmem => ?_
    obtain ⟨hnpm, hloc⟩ := nonneg_of_fault? (h.valid record hmem)
    rw [fits_of_lt hnpm (h.npm_lt record hmem), fits_of_lt hloc (h.loc_lt hmem)]
    rfl
  have hsum : 0 ≤ (records.map Record.loc).sum := List.sum_nonneg h.loc_nonneg
  have hlimit := h.sum_lt
  rw [countLimit] at hlimit
  rw [summarize, if_neg (by simpa using hne), if_pos hfits]
  refine ⟨_, rfl, rfl, ?_⟩
  rw [Record.total_eq_sum]
  exact Int.bmod_eq_of_le_mul_two (by omega) (by omega)

theorem readInteger_loc (h : Countable records) {record : Record} (hmem : record ∈ records) :
    Text.readInteger (toString record.loc).toList = .ok record.loc := by
  have hlt := h.loc_lt hmem
  obtain ⟨n, hn⟩ := Int.eq_ofNat_of_zero_le (nonneg_of_fault? (h.valid record hmem)).2
  rw [countLimit, hn] at hlt
  rw [hn]
  refine Text.readInteger_natCast (Nat.lt_of_lt_of_le (Int.ofNat_lt.mp hlt) ?_)
  calc 9223372036854775808 ≤ 10 ^ 19 := by decide
    _ ≤ 10 ^ Text.digitLimit := Nat.pow_le_pow_right (by decide) (by decide)

/-- The numbers in the table are those of the records, and have the same sum. -/
theorem column_loc (h : Countable records) (layout : Layout) :
    ∃ values : List Int,
      (column "loc" (rows layout records)).map (fun field => Text.readInteger field.toList) =
        values.map Except.ok ∧
      values.sum = (records.map Record.loc).sum := by
  have hloc : "loc" ∈ layout.columns := by cases layout <;> decide
  refine ⟨(sortRecords records).map Record.loc, ?_, ?_⟩
  · rw [column_rows hloc, List.map_map, List.map_map]
    refine List.map_congr_left fun record hmem => ?_
    exact h.readInteger_loc ((sortRecords_perm records).subset hmem)
  · exact ((sortRecords_perm records).map _).sum_eq

end Countable

/-- What the summary of some records has in common with their table. -/
structure SummaryAgrees (records : List Record) (figures : Figures) : Prop where
  classes : figures.classes = records.length
  /-- The number of rows that writing the table gives is the number of classes. -/
  counted : ∀ layout path tree count, (write layout records path tree).2 = .ok count →
    count = figures.classes
  /-- Nothing but the path can keep the table from being written. -/
  written : ∀ layout (path : Files.Path) (tree : Tree), tree.LinkFree → tree.Grounded →
    path.Normal → path.hasNull = false → ¬Obstructed tree path →
    (write layout records path tree).2 = .ok figures.classes
  /-- A reader of the table who adds up its numbers comes to the total. -/
  total : ∀ layout, ∃ (table : List (List String)) (values : List Int),
    readTable (format layout records) = some table ∧
    table.tail.length = figures.classes ∧
    (column "loc" table).map (fun field => Text.readInteger field.toList) = values.map .ok ∧
    figures.totalLoc = values.sum

theorem summaryAgrees_of_countable {records : List Record} (h : Countable records)
    {figures : Figures} (hclasses : figures.classes = records.length)
    (htotal : figures.totalLoc = (records.map Record.loc).sum) : SummaryAgrees records figures where
  classes := hclasses
  counted layout path tree count hcount := by rw [hclasses, count_of_write hcount]
  written layout path tree hfree hgrounded hnormal hnull hopen := by
    rcases write_cases layout records hfree hgrounded hnormal hnull with
      ⟨-, hok⟩ | ⟨hobstructed, -⟩
    · rw [hclasses, hok]
    · exact absurd hobstructed hopen
  total layout := by
    obtain ⟨values, hvalues, hsum⟩ := h.column_loc layout
    refine ⟨_, values, readTable_format layout records, ?_, hvalues, htotal.trans hsum.symm⟩
    rw [hclasses, rows, List.tail_cons, List.length_map, (sortRecords_perm records).length_eq]

/-- The summary and the table of records agree, whatever the order of the records is. -/
theorem summary_agrees_with_table {records : List Record} (hne : records ≠ [])
    (h : Countable records) :
    ∃ figures, summarize records = .ok figures ∧ SummaryAgrees records figures ∧
      ∀ other, other.Perm records → ∃ figures', summarize other = .ok figures' ∧
        SummaryAgrees other figures' ∧ figures'.classes = figures.classes ∧
        figures'.totalLoc = figures.totalLoc := by
  obtain ⟨figures, hfigures, hclasses, htotal⟩ := h.summarize_eq hne
  refine ⟨figures, hfigures, summaryAgrees_of_countable h hclasses htotal, ?_⟩
  intro other hperm
  have hother := h.of_perm hperm
  have hotherNe : other ≠ [] := by
    rintro rfl
    exact hne hperm.symm.eq_nil
  obtain ⟨figures', hfigures', hclasses', htotal'⟩ := hother.summarize_eq hotherNe
  refine ⟨figures', hfigures', summaryAgrees_of_countable hother hclasses' htotal', ?_, ?_⟩
  · rw [hclasses', hclasses, hperm.length_eq]
  · rw [htotal', htotal, (hperm.map _).sum_eq]

/-- Two records with the largest total that does not wrap around. -/
def longRecords : List Record :=
  [{ name := "p.B,C", npm := 1, loc := 9223372036854775800 }, { name := "p.A", loc := 7 }]

theorem summary_agrees_at_limit :
    Countable longRecords ∧ (longRecords.map Record.loc).sum = countLimit - 1 ∧
      ∃ figures, summarize longRecords = .ok figures ∧ SummaryAgrees longRecords figures ∧
        ∃ figures', summarize longRecords.reverse = .ok figures' ∧
          figures'.totalLoc = figures.totalLoc := by
  have hcountable : Countable longRecords := ⟨by decide, by decide, by decide⟩
  obtain ⟨figures, hfigures, hagrees, hother⟩ :=
    summary_agrees_with_table (by decide : longRecords ≠ []) hcountable
  obtain ⟨figures', hfigures', -, -, htotal⟩ := hother _ longRecords.reverse_perm
  exact ⟨hcountable, by decide, figures, hfigures, hagrees, figures', hfigures', htotal⟩

end Report

end JavaMetrics
