import JavaMetrics.Settings.Value
import Mathlib.Data.List.Nodup

/-!
# Tables

A table is a list of entries, and what counts of it is which value it has under a
key. `lookup_merge` says what a table has after another one was put into it: the
value of the other one where that has one, else its own. For that the entries of
the other one must have different keys, since they are put in one after the other
and the last one stays.
-/

namespace JavaMetrics.Settings

variable {α : Type}

/-- The keys of a table. -/
def keysOf (table : List (String × α)) : List String :=
  table.map (·.1)

@[simp] theorem keysOf_nil : keysOf ([] : List (String × α)) = [] := rfl

@[simp] theorem keysOf_cons (entry : String × α) (rest : List (String × α)) :
    keysOf (entry :: rest) = entry.1 :: keysOf rest := rfl

theorem lookup_cons_eq (key : String) (entry : String × α) (rest : List (String × α)) :
    (entry :: rest).lookup key = if key = entry.1 then some entry.2 else rest.lookup key := by
  rw [List.lookup_cons]
  by_cases h : key = entry.1
  · simp [h]
  · simp [h, beq_eq_false_iff_ne.mpr h]

theorem lookup_eq_none {key : String} {table : List (String × α)} :
    table.lookup key = none ↔ key ∉ keysOf table := by
  rw [List.lookup_eq_none_iff, keysOf, List.mem_map]
  constructor
  · rintro h ⟨entry, hmem, rfl⟩
    have := h entry hmem
    simp at this
  · intro h entry hmem
    rw [bne_iff_ne]
    exact fun heq => h ⟨entry, hmem, heq.symm⟩

theorem mem_of_lookup {key : String} {value : α} {table : List (String × α)}
    (h : table.lookup key = some value) : (key, value) ∈ table := by
  obtain ⟨before, after, rfl, -⟩ := List.lookup_eq_some_iff.mp h
  exact List.mem_append_right _ List.mem_cons_self

theorem lookup_assign (key k : String) (value : α) (table : List (String × α)) :
    (assign k value table).lookup key = if key = k then some value else table.lookup key := by
  induction table with
  | nil => rw [assign, lookup_cons_eq]
  | cons entry rest ih =>
      obtain ⟨first, held⟩ := entry
      rw [assign]
      by_cases hfirst : first = k
      · subst hfirst
        rw [if_pos (by simp), lookup_cons_eq, lookup_cons_eq]
        split <;> rfl
      · rw [if_neg (by simpa using hfirst), lookup_cons_eq, ih, lookup_cons_eq]
        by_cases hkey : key = first
        · rw [if_pos hkey, if_pos hkey, if_neg (by rw [hkey]; exact hfirst)]
        · rw [if_neg hkey, if_neg hkey]

theorem keysOf_assign (k : String) (value : α) (table : List (String × α)) :
    keysOf (assign k value table) =
      if k ∈ keysOf table then keysOf table else keysOf table ++ [k] := by
  induction table with
  | nil => simp [assign]
  | cons entry rest ih =>
      obtain ⟨first, held⟩ := entry
      rw [assign]
      by_cases hfirst : first = k
      · simp [hfirst]
      · have hne : k ≠ first := fun heq => hfirst heq.symm
        rw [if_neg (by simpa using hfirst), keysOf_cons, ih]
        by_cases hrest : k ∈ keysOf rest
        · simp [hrest]
        · simp [hrest, hne]

theorem nodup_assign (k : String) (value : α) {table : List (String × α)}
    (h : (keysOf table).Nodup) : (keysOf (assign k value table)).Nodup := by
  rw [keysOf_assign]
  split
  · exact h
  · next hmem =>
      rw [List.nodup_append]
      refine ⟨h, List.nodup_singleton k, ?_⟩
      intro key hkey other hother heq
      rw [List.mem_singleton.mp hother] at heq
      exact hmem (heq ▸ hkey)

theorem mem_assign {k : String} {value : α} {entry : String × α} {table : List (String × α)}
    (h : entry ∈ assign k value table) : entry = (k, value) ∨ entry ∈ table := by
  induction table with
  | nil => exact .inl (List.mem_singleton.mp h)
  | cons first rest ih =>
      obtain ⟨key, held⟩ := first
      rw [assign] at h
      split at h
      · next heq =>
          rcases List.mem_cons.mp h with rfl | hrest
          · exact .inl (by rw [beq_iff_eq.mp heq])
          · exact .inr (List.mem_cons_of_mem _ hrest)
      · rcases List.mem_cons.mp h with rfl | hrest
        · exact .inr List.mem_cons_self
        · exact (ih hrest).imp_right (List.mem_cons_of_mem _)

theorem mem_assign_of_ne {k : String} {value : α} {entry : String × α}
    {table : List (String × α)} (hne : entry.1 ≠ k) :
    entry ∈ assign k value table ↔ entry ∈ table := by
  induction table with
  | nil =>
      rw [assign, List.mem_singleton]
      constructor
      · rintro rfl
        exact absurd rfl hne
      · intro h
        cases h
  | cons first rest ih =>
      obtain ⟨key, held⟩ := first
      rw [assign]
      by_cases hkey : key = k
      · rw [if_pos (by simpa using hkey), List.mem_cons, List.mem_cons]
        constructor
        · rintro (rfl | hrest)
          · exact absurd hkey hne
          · exact .inr hrest
        · rintro (rfl | hrest)
          · exact absurd hkey hne
          · exact .inr hrest
      · rw [if_neg (by simpa using hkey), List.mem_cons, List.mem_cons, ih]

/-! ## One table put into another -/

theorem merge_cons (table : List (String × α)) (entry : String × α)
    (additions : List (String × α)) :
    merge table (entry :: additions) = merge (assign entry.1 entry.2 table) additions :=
  rfl

theorem lookup_merge (key : String) (table : List (String × α)) {additions : List (String × α)}
    (h : (keysOf additions).Nodup) :
    (merge table additions).lookup key = (additions.lookup key).or (table.lookup key) := by
  induction additions generalizing table with
  | nil => rfl
  | cons entry rest ih =>
      rw [keysOf_cons, List.nodup_cons] at h
      rw [merge_cons, ih _ h.2, lookup_assign, lookup_cons_eq]
      by_cases hkey : key = entry.1
      · -- no later entry has this key
        have hnone : rest.lookup key = none := by
          rw [lookup_eq_none, hkey]
          exact h.1
        rw [hnone, if_pos hkey, if_pos hkey]
        rfl
      · rw [if_neg hkey, if_neg hkey]

theorem mem_keysOf_merge {key : String} {table additions : List (String × α)} :
    key ∈ keysOf (merge table additions) ↔ key ∈ keysOf table ∨ key ∈ keysOf additions := by
  induction additions generalizing table with
  | nil => simp [merge]
  | cons entry rest ih =>
      rw [merge_cons, ih, keysOf_assign, keysOf_cons, List.mem_cons]
      split
      · next hmem =>
          constructor
          · exact fun h => h.imp_right .inr
          · rintro (h | rfl | h)
            · exact .inl h
            · exact .inl hmem
            · exact .inr h
      · rw [List.mem_append, List.mem_singleton, or_assoc]

/-! ## Comparing tables -/

mutual

/-- Are two values the same? -/
def Value.same : Value → Value → Bool
  | .null, .null => true
  | .bool a, .bool b => a == b
  | .int a, .int b => a == b
  | .float a, .float b => a == b
  | .text a, .text b => a == b
  | .list as, .list bs => sameItems as bs
  | .table as, .table bs => sameEntries as bs
  | .date a, .date b => a == b
  | .time a, .time b => a == b
  | .dateTime d t offset, .dateTime e u other => d == e && t == u && offset == other
  | _, _ => false

def sameItems : List Value → List Value → Bool
  | [], [] => true
  | a :: as, b :: bs => a.same b && sameItems as bs
  | _, _ => false

def sameEntries : List (String × Value) → List (String × Value) → Bool
  | [], [] => true
  | (k, a) :: as, (l, b) :: bs => k == l && a.same b && sameEntries as bs
  | _, _ => false

end

mutual

theorem eq_of_same {a b : Value} (h : a.same b = true) : a = b := by
  cases a <;> cases b
  case null.null => rfl
  case list.list => rw [eq_of_sameItems h]
  case table.table => rw [eq_of_sameEntries h]
  -- values of different kinds are not the same, and all others are made of plain data
  all_goals first
    | exact absurd h Bool.false_ne_true
    | simpa [Value.same, and_assoc] using h

theorem eq_of_sameItems {as bs : List Value} (h : sameItems as bs = true) : as = bs := by
  match as, bs, h with
  | [], [], _ => rfl
  | a :: as, b :: bs, h =>
      rw [sameItems, Bool.and_eq_true] at h
      rw [eq_of_same h.1, eq_of_sameItems h.2]

theorem eq_of_sameEntries {as bs : List (String × Value)} (h : sameEntries as bs = true) :
    as = bs := by
  match as, bs, h with
  | [], [], _ => rfl
  | (k, a) :: as, (l, b) :: bs, h =>
      rw [sameEntries, Bool.and_eq_true, Bool.and_eq_true, beq_iff_eq] at h
      rw [h.1.1, eq_of_same h.1.2, eq_of_sameEntries h.2]

end

/-- What a document says can be found out by running its reader. -/
theorem eq_some_of_sameEntries {read? : Option (List (String × Value))}
    {table : List (String × Value)} (h : read?.any (sameEntries table) = true) :
    read? = some table := by
  cases read? with
  | none => cases h
  | some found => rw [eq_of_sameEntries h]

end JavaMetrics.Settings
