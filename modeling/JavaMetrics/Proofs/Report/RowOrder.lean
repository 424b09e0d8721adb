import JavaMetrics.Proofs.Analysis.Pool
import JavaMetrics.Proofs.Report.CsvReader

/-!
# One table for all arrangements

Records are sorted twice, when the reports on the files are put together and again
when the table is written. The second sort changes nothing, so the rows stand in the
order of the records that a run gives back (`readTable_format_of_ordered`).

Records may also reach the table in any other order. `Rearranged` says what is left
of the first order then: the records are numbered, and those of one name still have
ascending numbers. Lists that are rearrangements of one another have the same records
of every name (`Rearranged.named_eq`), which is all that a stable sort looks at. The
numbers tell equal records apart, so none of them can be dropped or taken twice
unnoticed.
-/

namespace JavaMetrics.Report

open Metrics (Record)

/-- Is the second list the first one in another order, with records of one name in the order that
they had? -/
def Rearranged (records records' : List Record) : Prop :=
  ∃ numbered : List (Record × Nat), numbered.Perm records.zipIdx ∧
    numbered.map (·.1) = records' ∧
      numbered.Pairwise fun first second => first.1.name = second.1.name → first.2 < second.2

/-! ## Numbered records -/

/-- The numbered records of one name. -/
def numberedNamed (name : String) (numbered : List (Record × Nat)) : List (Record × Nat) :=
  numbered.filter fun entry => decide (entry.1.name = name)

theorem map_fst_numberedNamed (name : String) (numbered : List (Record × Nat)) :
    (numberedNamed name numbered).map (·.1) = named name (numbered.map (·.1)) := by
  rw [named, List.filter_map]
  rfl

theorem pairwise_zipIdx (records : List Record) :
    records.zipIdx.Pairwise fun first second => first.2 < second.2 := by
  have hnumbers : (records.zipIdx.map Prod.snd).Pairwise (· < ·) := by
    rw [List.zipIdx_map_snd]
    exact List.pairwise_lt_range' 1
  exact List.pairwise_map.mp hnumbers

theorem pairwise_numberedNamed {numbered : List (Record × Nat)}
    (h : numbered.Pairwise fun first second => first.1.name = second.1.name → first.2 < second.2)
    (name : String) :
    (numberedNamed name numbered).Pairwise fun first second => first.2 < second.2 := by
  refine (h.sublist List.filter_sublist).imp_of_mem ?_
  intro first second hfirst hsecond hlt
  have hname := of_decide_eq_true (List.mem_filter.mp hfirst).2
  have hname' := of_decide_eq_true (List.mem_filter.mp hsecond).2
  exact hlt (hname.trans hname'.symm)

theorem Rearranged.named_eq {records records' : List Record} (h : Rearranged records records')
    (name : String) : named name records' = named name records := by
  obtain ⟨numbered, hperm, rfl, hordered⟩ := h
  -- both are in the order of the numbers
  have hsame : numberedNamed name numbered = numberedNamed name records.zipIdx := by
    refine (hperm.filter _).eq_of_pairwise ?_ (pairwise_numberedNamed hordered name)
      ((pairwise_zipIdx records).sublist List.filter_sublist)
    intro first second _ _ hlt hgt
    omega
  have hrecords : records.zipIdx.map (·.1) = records := List.zipIdx_map_fst 0 records
  rw [← map_fst_numberedNamed, hsame, map_fst_numberedNamed, hrecords]

theorem sortRecords_of_rearranged {records records' : List Record}
    (h : Rearranged records records') : sortRecords records' = sortRecords records := by
  refine eq_of_named_eq (sortRecords_ordered records') (sortRecords_ordered records) ?_
  intro name
  rw [named_sortRecords, named_sortRecords, h.named_eq]

/-- Sorting is such a rearrangement itself: the numbered records, sorted by name and then by
number. -/
theorem rearranged_sortRecords (records : List Record) :
    Rearranged records (sortRecords records) := by
  refine ⟨records.zipIdx.mergeSort (List.zipIdxLE fun a b => decide (a.name ≤ b.name)),
    List.mergeSort_perm _ _, List.mergeSort_zipIdx, ?_⟩
  have hsorted := List.pairwise_mergeSort (List.zipIdxLE_trans nameLe_trans)
    (List.zipIdxLE_total nameLe_total) records.zipIdx
  have hnodup : (records.zipIdx.mergeSort
      (List.zipIdxLE fun a b => decide (a.name ≤ b.name))).Pairwise
        fun first second => first.2 ≠ second.2 := by
    refine (List.mergeSort_perm _ _).symm.pairwise ?_ ?_
    · exact (pairwise_zipIdx records).imp Nat.ne_of_lt
    · exact fun h => h.symm
  refine (hsorted.and hnodup).imp ?_
  rintro first second ⟨hle, hne⟩ hname
  simp only [List.zipIdxLE, hname, String.le_refl, decide_true, if_true, decide_eq_true_eq] at hle
  omega

/-! ## Rows -/

/-- What the row of a record holds. -/
def fieldsOf (layout : Layout) (record : Record) : List String :=
  (row layout record).map Cell.content

theorem format_of_sortRecords_eq {records records' : List Record}
    (h : sortRecords records' = sortRecords records) (layout : Layout) :
    format layout records' = format layout records := by
  rw [format, format, rows, rows, h]

theorem sortRecords_of_ordered {records : List Record}
    (h : records.Pairwise fun a b => a.name ≤ b.name) : sortRecords records = records :=
  (stablySorted_iff.mp ⟨.refl _, h, fun _ => rfl⟩).symm

theorem sortRecords_sortRecords (records : List Record) :
    sortRecords (sortRecords records) = sortRecords records :=
  sortRecords_of_ordered (sortRecords_ordered records)

theorem readTable_format_of_ordered {records : List Record}
    (h : records.Pairwise fun a b => a.name ≤ b.name) (layout : Layout) :
    readTable (format layout records) =
      some (layout.columns :: records.map (fieldsOf layout)) := by
  rw [readTable_format, rows, sortRecords_of_ordered h]
  rfl

theorem exists_rows (layout : Layout) (records : List Record) :
    ∃ data, readTable (format layout records) = some (layout.columns :: data) ∧
      data.Perm (records.map (fieldsOf layout)) :=
  ⟨_, readTable_format layout records, (sortRecords_perm records).map (fieldsOf layout)⟩

open Analysis (Setup Pool runPaths reportOn)

/-- What the table shows of the order and the number of some records. -/
structure RowAccount (records : List Record) : Prop where
  /-- Every arrangement that keeps records of one name in order gives the same text. -/
  arranged : ∀ records', Rearranged records records' →
    ∀ layout, format layout records' = format layout records
  /-- The sorted list is one of them, and sorting it again changes nothing. -/
  sorted : Rearranged records (sortRecords records) ∧
    ∀ layout, format layout (sortRecords records) = format layout records
  idempotent : sortRecords (sortRecords records) = sortRecords records
  /-- The lines after the header are those of the records, one for each, equal ones included. -/
  counted : ∀ layout, ∃ data,
    readTable (format layout records) = some (layout.columns :: data) ∧
      data.length = records.length ∧ data.Perm (records.map (fieldsOf layout))

/-- The rows of a table are those of its records, and only the order of records of one name has a say
in their order. A run over some files, with whatever workers, gives its records in the order of
their rows. -/
theorem rows_of_any_arrangement :
    (∀ records, RowAccount records) ∧
      ∀ (setup : Setup) (tree : Files.Tree) (counters : Counters) (paths : List Files.Path),
        ∃ records, (runPaths setup tree counters paths).result = .ok records ∧
          (∀ workers schedule pool,
            (Pool.start counters (paths.map (reportOn setup tree))).run workers schedule =
              some pool → pool.isDone = true → pool.records = records) ∧
          ∀ layout, readTable (format layout records) =
            some (layout.columns :: records.map (fieldsOf layout)) := by
  refine ⟨fun records => ⟨?_, ?_, sortRecords_sortRecords records, ?_⟩, ?_⟩
  · intro records' h
    exact format_of_sortRecords_eq (sortRecords_of_rearranged h)
  · exact ⟨rearranged_sortRecords records,
      format_of_sortRecords_eq (sortRecords_sortRecords records)⟩
  · intro layout
    obtain ⟨data, hread, hperm⟩ := exists_rows layout records
    exact ⟨data, hread, by rw [hperm.length_eq, List.length_map], hperm⟩
  · intro setup tree counters paths
    refine ⟨_, rfl, ?_, readTable_format_of_ordered (sortRecords_ordered _)⟩
    intro workers schedule pool hrun hdone
    exact Pool.records_of_isDone (Pool.run_accounts (Pool.start_accounts counters _) hrun) hdone

end JavaMetrics.Report
