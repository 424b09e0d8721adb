import JavaMetrics.Report.Csv

/-!
# The sort of records is stable

Records of one name are common: two files may declare a type of the same name.
So it matters that sorting by name leaves records of one name in the order they
came in. `StablySorted` says what a stable sort is, without saying how it is
done, and `stablySorted_iff` says that `sortRecords` gives the one list that is
stably sorted.

The two halves are independent. That `sortRecords` sorts stably comes from the
merge sort, which keeps every ordered sublist; the records of one name are such
a sublist. That there is no second answer is an induction on both lists: their
heads have the same name, hence are the first records of that name, hence are
the same.
-/

namespace JavaMetrics.Report

open Metrics (Record)

/-- The records of one name. -/
def named (name : String) (records : List Record) : List Record :=
  records.filter fun record => decide (record.name = name)

/-- `sorted` is `records` in the order of the names: nothing is lost or
doubled, names never decrease, and records of one name stay in order. -/
structure StablySorted (records sorted : List Record) : Prop where
  perm : sorted.Perm records
  ordered : sorted.Pairwise fun a b => a.name ≤ b.name
  stable : ∀ name, named name sorted = named name records

theorem mem_named_name {record : Record} {records : List Record} :
    record ∈ named record.name records ↔ record ∈ records := by
  simp [named]

/-- The comparison that records are sorted by is transitive and total. -/
theorem nameLe_trans (a b c : Record) (hab : decide (a.name ≤ b.name) = true)
    (hbc : decide (b.name ≤ c.name) = true) : decide (a.name ≤ c.name) = true := by
  rw [decide_eq_true_eq] at hab hbc ⊢
  exact String.le_trans hab hbc

theorem nameLe_total (a b : Record) :
    (decide (a.name ≤ b.name) || decide (b.name ≤ a.name)) = true := by
  rw [Bool.or_eq_true, decide_eq_true_eq, decide_eq_true_eq]
  exact String.le_total _ _

theorem sortRecords_perm (records : List Record) :
    (sortRecords records).Perm records :=
  List.mergeSort_perm _ _

theorem sortRecords_ordered (records : List Record) :
    (sortRecords records).Pairwise fun a b => a.name ≤ b.name := by
  have h : (sortRecords records).Pairwise
      fun a b => decide (a.name ≤ b.name) = true :=
    List.pairwise_mergeSort nameLe_trans nameLe_total records
  exact h.imp fun hab => of_decide_eq_true hab

theorem named_pairwise (name : String) (records : List Record) :
    (named name records).Pairwise fun a b => decide (a.name ≤ b.name) = true := by
  rw [List.pairwise_iff_forall_sublist]
  intro a b hab
  have ha : a ∈ named name records := hab.subset (by simp)
  have hb : b ∈ named name records := hab.subset (by simp)
  simp only [named, List.mem_filter, decide_eq_true_eq] at ha hb
  have hname : a.name = b.name := ha.2.trans hb.2.symm
  exact decide_eq_true (hname ▸ String.le_refl a.name)

/-- The records of one name are an ordered sublist, and merging keeps those;
what is left to see is that no other record of the name gets in between. -/
theorem named_sortRecords (name : String) (records : List Record) :
    named name (sortRecords records) = named name records := by
  have hsub : (named name records).Sublist (sortRecords records) :=
    List.sublist_mergeSort nameLe_trans nameLe_total
      (named_pairwise name records) List.filter_sublist
  have hfilter := hsub.filter fun record => decide (record.name = name)
  rw [named, List.filter_filter] at hfilter
  simp only [Bool.and_self] at hfilter
  have hlen : (named name (sortRecords records)).length =
      (named name records).length :=
    ((sortRecords_perm records).filter _).length_eq
  exact (hfilter.eq_of_length hlen.symm).symm

theorem sortRecords_stablySorted (records : List Record) :
    StablySorted records (sortRecords records) where
  perm := sortRecords_perm records
  ordered := sortRecords_ordered records
  stable name := named_sortRecords name records

theorem mem_iff_of_named_eq {first second : List Record}
    (h : ∀ name, named name first = named name second) (record : Record) :
    record ∈ first ↔ record ∈ second := by
  rw [← mem_named_name, h, mem_named_name]

/-- The first record of an ordered list has the least name. -/
theorem head_name_le {a record : Record} {rest : List Record}
    (h : (a :: rest).Pairwise fun a b => a.name ≤ b.name)
    (hmem : record ∈ a :: rest) : a.name ≤ record.name := by
  rcases List.mem_cons.1 hmem with rfl | hmem
  · exact String.le_refl _
  · exact List.rel_of_pairwise_cons h hmem

/-- Two ordered lists with the same records of every name are the same list. -/
theorem eq_of_named_eq {first second : List Record}
    (h₁ : first.Pairwise fun a b => a.name ≤ b.name)
    (h₂ : second.Pairwise fun a b => a.name ≤ b.name)
    (h : ∀ name, named name first = named name second) : first = second := by
  induction first generalizing second with
  | nil =>
      cases second with
      | nil => rfl
      | cons b rest =>
          exact absurd ((mem_iff_of_named_eq h b).2 (by simp)) (by simp)
  | cons a first ih =>
      cases second with
      | nil => exact absurd ((mem_iff_of_named_eq h a).1 (by simp)) (by simp)
      | cons b second =>
          have hname : a.name = b.name := String.le_antisymm
            (head_name_le h₁ ((mem_iff_of_named_eq h b).2 (by simp)))
            (head_name_le h₂ ((mem_iff_of_named_eq h a).1 (by simp)))
          -- Both heads are the first record of their name.
          have hhead := h a.name
          simp only [named, List.filter_cons, hname, decide_true, if_true] at hhead
          obtain ⟨rfl, -⟩ := List.cons.inj hhead
          have htail : ∀ name, named name first = named name second := by
            intro name
            have hn := h name
            simp only [named, List.filter_cons] at hn ⊢
            split at hn
            · exact (List.cons.inj hn).2
            · exact hn
          rw [ih h₁.of_cons h₂.of_cons htail]

/-- `sortRecords` is the stable sort: it gives the one list that is stably
sorted. -/
theorem stablySorted_iff {records sorted : List Record} :
    StablySorted records sorted ↔ sorted = sortRecords records := by
  constructor
  · intro h
    refine eq_of_named_eq h.ordered (sortRecords_ordered records) fun name => ?_
    rw [h.stable, named_sortRecords]
  · rintro rfl
    exact sortRecords_stablySorted records

end JavaMetrics.Report
