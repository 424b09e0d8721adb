import JavaMetrics.Proofs.Settings.Tables
import JavaMetrics.Settings.Toml.Document

/-!
# Keys of a document

A document may not define a key twice, and its reader refuses one that does: a
new entry goes into a table that does not have its key, and every other change
puts a value in the place of an old one. So each table that a document writes, at
any depth, has each of its keys once (`keyed_parse?`).

The readers of values call one another, with a bound that goes down at each call;
`keyed_readers` is one induction on that bound for the three of them. Tables are
changed at the end of a list of keys, through tables and arrays on the way, and
`keyed_changeAt` carries any change that keeps keys distinct along such a list.
-/

namespace JavaMetrics.Settings.Toml

/-- Does every table in a value have each of its keys once? -/
inductive Keyed : Value → Prop
  | single {value : Value} (h : isCompound value = false) : Keyed value
  | list {items : List Value} (h : ∀ item ∈ items, Keyed item) : Keyed (.list items)
  | table {entries : Table} (hkeys : (keysOf entries).Nodup)
      (h : ∀ entry ∈ entries, Keyed entry.2) : Keyed (.table entries)

theorem keyed_list_iff {items : List Value} :
    Keyed (.list items) ↔ ∀ item ∈ items, Keyed item := by
  constructor
  · intro h
    cases h with
    | single h => cases h
    | list h => exact h
  · exact .list

theorem keyed_table_iff {entries : Table} :
    Keyed (.table entries) ↔
      (keysOf entries).Nodup ∧ ∀ entry ∈ entries, Keyed entry.2 := by
  constructor
  · intro h
    cases h with
    | single h => cases h
    | table hkeys h => exact ⟨hkeys, h⟩
  · exact fun h => .table h.1 h.2

theorem keyed_empty : Keyed (.table []) :=
  keyed_table_iff.mpr ⟨List.nodup_nil, by simp⟩

theorem keyed_of_lookup {table : Table} {k : String} {value : Value}
    (htable : Keyed (.table table)) (h : table.lookup k = some value) : Keyed value :=
  (keyed_table_iff.mp htable).2 _ (mem_of_lookup h)

theorem keyed_assign {table : Table} {k : String} {value : Value}
    (htable : Keyed (.table table)) (hvalue : Keyed value) :
    Keyed (.table (assign k value table)) := by
  obtain ⟨hkeys, hentries⟩ := keyed_table_iff.mp htable
  refine .table (nodup_assign k value hkeys) ?_
  intro entry hmem
  rcases mem_assign hmem with rfl | hold
  · exact hvalue
  · exact hentries entry hold

theorem keyed_append {table : Table} {k : String} {value : Value}
    (htable : Keyed (.table table)) (hvalue : Keyed value) (h : table.lookup k = none) :
    Keyed (.table (table ++ [(k, value)])) := by
  obtain ⟨hkeys, hentries⟩ := keyed_table_iff.mp htable
  rw [lookup_eq_none] at h
  refine .table ?_ ?_
  · rw [keysOf, List.map_append, List.nodup_append]
    refine ⟨hkeys, List.nodup_singleton k, ?_⟩
    rintro key hkey _ hother rfl
    obtain rfl : key = k := List.mem_singleton.mp hother
    exact h hkey
  · intro entry hmem
    rcases List.mem_append.mp hmem with hold | hnew
    · exact hentries entry hold
    · rw [List.mem_singleton.mp hnew]
      exact hvalue

/-! ## Changes of a table -/

theorem keyed_addEntry {table table' : Table} {k : String} {value : Value}
    (htable : Keyed (.table table)) (hvalue : Keyed value)
    (h : addEntry k value table = some table') : Keyed (.table table') := by
  rw [addEntry] at h
  split at h
  · next hnone =>
      injection h with h
      rw [← h]
      exact keyed_append htable hvalue hnone
  · cases h

theorem keyed_addTable {table table' : Table} {k : String} (htable : Keyed (.table table))
    (h : addTable k table = some table') : Keyed (.table table') := by
  have hone : Keyed (.list [.table []]) := .list (by simpa using keyed_empty)
  rw [addTable] at h
  split at h
  · next hnone =>
      injection h with h
      rw [← h]
      exact keyed_append htable hone hnone
  · next items hsome =>
      injection h with h
      rw [← h]
      apply keyed_assign htable
      refine .list ?_
      intro item hmem
      rcases List.mem_append.mp hmem with hold | hnew
      · exact keyed_list_iff.mp (keyed_of_lookup htable hsome) item hold
      · exact keyed_list_iff.mp hone item hnew
  · cases h

theorem keyed_changeAt {throughArrays : Bool} {change : Table → Option Table}
    (hchange : ∀ table table', Keyed (.table table) → change table = some table' →
      Keyed (.table table'))
    {path : List String} {table table' : Table} (htable : Keyed (.table table))
    (h : changeAt throughArrays change path table = some table') : Keyed (.table table') := by
  induction path generalizing table table' with
  | nil => exact hchange table table' htable h
  | cons k ks ih =>
      rw [changeAt] at h
      split at h
      · obtain ⟨inner, hinner, rfl⟩ := Option.map_eq_some_iff.mp h
        exact keyed_assign htable (ih keyed_empty hinner)
      · next old hold =>
          obtain ⟨inner, hinner, rfl⟩ := Option.map_eq_some_iff.mp h
          exact keyed_assign htable (ih (keyed_of_lookup htable hold) hinner)
      · next items hold =>
          have hitems := keyed_list_iff.mp (keyed_of_lookup htable hold)
          split at h
          · split at h
            · next old hlast =>
                obtain ⟨inner, hinner, rfl⟩ := Option.map_eq_some_iff.mp h
                have hinner := ih (hitems _ (List.mem_of_getLast? hlast)) hinner
                apply keyed_assign htable
                refine .list ?_
                intro item hmem
                rcases List.mem_append.mp hmem with hkept | hnew
                · exact hitems item ((List.dropLast_subset items) hkept)
                · rw [List.mem_singleton.mp hnew]
                  exact hinner
            · cases h
          · cases h
      · cases h

/-! ## Values -/

theorem isCompound_withTime (d : Date) (cs : List Char) :
    isCompound (withTime d cs).1 = false := by
  rw [withTime.eq_def]
  split
  · split
    · split <;> rfl
    · rfl
  · rfl

theorem isCompound_basedInteger {cs rest : List Char} {value : Value}
    (h : basedInteger cs = some (value, rest)) : isCompound value = false := by
  rw [basedInteger.eq_def] at h
  split at h
  · simp only [Option.ite_none_left_eq_some, Option.some.injEq, Prod.mk.injEq] at h
    rw [← h.2.1]
    rfl
  · cases h

theorem isCompound_decimalNumber {cs rest : List Char} {value : Value}
    (h : decimalNumber cs = some (value, rest)) : isCompound value = false := by
  simp only [decimalNumber] at h
  split at h
  · cases h
  · split at h
    · split at h
      · cases h
      · injection h with h
        injection h with h
        rw [← h]
        rfl
    · injection h with h
      injection h with h
      rw [← h]
      rfl

theorem isCompound_specialFloat {cs rest : List Char} {value : Value}
    (h : specialFloat cs = some (value, rest)) : isCompound value = false := by
  simp only [specialFloat] at h
  split at h
  · injection h with h
    injection h with h
    rw [← h]
    rfl
  · injection h with h
    injection h with h
    rw [← h]
    rfl
  · cases h

theorem isCompound_numberOrDate {cs rest : List Char} {value : Value}
    (h : numberOrDate cs = some (value, rest)) : isCompound value = false := by
  simp only [numberOrDate] at h
  split at h
  · next d after _ =>
      split at h
      · injection h with h
        have hcompound := isCompound_withTime d after
        rw [h] at hcompound
        exact hcompound
      · cases h
  · split at h
    · injection h with h
      injection h with h
      rw [← h]
      rfl
    · rcases Option.or_eq_some_iff.mp h with hbased | ⟨-, h⟩
      · exact isCompound_basedInteger hbased
      · rcases Option.or_eq_some_iff.mp h with hdecimal | ⟨-, hspecial⟩
        · exact isCompound_decimalNumber hdecimal
        · exact isCompound_specialFloat hspecial

/-- Do the three readers of values give keyed ones within a bound? -/
structure ReadersKeyed (steps : Nat) : Prop where
  value : ∀ {cs rest : List Char} {item : Value},
    value steps cs = some (item, rest) → Keyed item
  items : ∀ {cs rest : List Char} {items : List Value},
    arrayItems steps cs = some (items, rest) → ∀ item ∈ items, Keyed item
  entries : ∀ {marks : Marks} {table table' : Table} {cs rest : List Char},
    Keyed (.table table) → inlineEntries steps marks table cs = some (table', rest) →
      Keyed (.table table')

theorem keyed_value_succ {steps : Nat} (ih : ReadersKeyed steps) {cs rest : List Char}
    {item : Value} (h : value (steps + 1) cs = some (item, rest)) : Keyed item := by
  rw [value.eq_def] at h
  simp only [] at h
  split at h
  · obtain ⟨⟨s, after⟩, -, heq⟩ := Option.map_eq_some_iff.mp h
    cases heq
    exact .single rfl
  · obtain ⟨⟨s, after⟩, -, heq⟩ := Option.map_eq_some_iff.mp h
    cases heq
    exact .single rfl
  · cases h
    exact .single rfl
  · cases h
    exact .single rfl
  · obtain ⟨after, -, h⟩ := Option.bind_eq_some_iff.mp h
    split at h
    · cases h
      exact .list (by simp)
    · obtain ⟨⟨items, after⟩, hitems, heq⟩ := Option.map_eq_some_iff.mp h
      cases heq
      exact .list (ih.items hitems)
  · split at h
    · cases h
      exact keyed_empty
    · obtain ⟨⟨table, after⟩, hentries, heq⟩ := Option.map_eq_some_iff.mp h
      cases heq
      exact ih.entries keyed_empty hentries
  · exact .single (isCompound_numberOrDate h)

theorem keyed_arrayItems_succ {steps : Nat} (ih : ReadersKeyed steps) {cs rest : List Char}
    {items : List Value} (h : arrayItems (steps + 1) cs = some (items, rest)) :
    ∀ item ∈ items, Keyed item := by
  rw [arrayItems] at h
  obtain ⟨⟨first, after⟩, hfirst, h⟩ := Option.bind_eq_some_iff.mp h
  have hfirst := ih.value hfirst
  obtain ⟨after, -, h⟩ := Option.bind_eq_some_iff.mp h
  split at h
  · cases h
    simpa using hfirst
  · obtain ⟨more, -, h⟩ := Option.bind_eq_some_iff.mp h
    split at h
    · cases h
      simpa using hfirst
    · obtain ⟨⟨others, after⟩, hothers, heq⟩ := Option.map_eq_some_iff.mp h
      cases heq
      exact List.forall_mem_cons.mpr ⟨hfirst, ih.items hothers⟩
  · cases h

theorem keyed_inlineEntries_succ {steps : Nat} (ih : ReadersKeyed steps) {marks : Marks}
    {table table' : Table} {cs rest : List Char} (htable : Keyed (.table table))
    (h : inlineEntries (steps + 1) marks table cs = some (table', rest)) :
    Keyed (.table table') := by
  rw [inlineEntries] at h
  obtain ⟨⟨path, after⟩, -, h⟩ := Option.bind_eq_some_iff.mp h
  simp only [] at h
  split at h
  · obtain ⟨⟨item, after⟩, hitem, h⟩ := Option.bind_eq_some_iff.mp h
    have hitem := ih.value hitem
    simp only [] at h
    split at h
    · cases h
    · obtain ⟨changed, hchanged, h⟩ := Option.bind_eq_some_iff.mp h
      have hchanged : Keyed (.table changed) :=
        keyed_changeAt (fun _ _ ht hadd => keyed_addEntry ht hitem hadd) htable hchanged
      split at h
      · cases h
        exact hchanged
      · exact ih.entries hchanged h
      · cases h
  · cases h

theorem keyed_readers (steps : Nat) : ReadersKeyed steps := by
  induction steps with
  | zero =>
      refine ⟨?_, ?_, ?_⟩
      · intro cs rest item h
        rw [value] at h
        cases h
      · intro cs rest items h
        rw [arrayItems] at h
        cases h
      · intro marks table table' cs rest _ h
        rw [inlineEntries] at h
        cases h
  | succ steps ih =>
      exact ⟨keyed_value_succ ih, keyed_arrayItems_succ ih, keyed_inlineEntries_succ ih⟩

/-! ## Documents -/

theorem keyed_assignment {doc doc' : Document} {path : List String} {item : Value}
    (hdoc : Keyed (.table doc.data)) (hitem : Keyed item)
    (h : doc.assignment path item = some doc') : Keyed (.table doc'.data) := by
  simp only [Document.assignment] at h
  split at h
  · cases h
  · split at h
    · cases h
    · obtain ⟨data, hdata, rfl⟩ := Option.map_eq_some_iff.mp h
      exact keyed_changeAt (fun _ _ ht hadd => keyed_addEntry ht hitem hadd) hdoc hdata

theorem keyed_openTable {doc doc' : Document} {path : List String}
    (hdoc : Keyed (.table doc.data)) (h : doc.openTable path = some doc') :
    Keyed (.table doc'.data) := by
  rw [Document.openTable] at h
  split at h
  · cases h
  · obtain ⟨data, hdata, rfl⟩ := Option.map_eq_some_iff.mp h
    refine keyed_changeAt ?_ hdoc hdata
    intro table table' htable hsome
    injection hsome with hsome
    rw [← hsome]
    exact htable

theorem keyed_openArrayTable {doc doc' : Document} {path : List String}
    (hdoc : Keyed (.table doc.data)) (h : doc.openArrayTable path = some doc') :
    Keyed (.table doc'.data) := by
  simp only [Document.openArrayTable] at h
  split at h
  · cases h
  · obtain ⟨data, hdata, rfl⟩ := Option.map_eq_some_iff.mp h
    exact keyed_changeAt (fun _ _ ht hadd => keyed_addTable ht hadd) hdoc hdata

theorem keyed_statement {doc doc' : Document} {cs rest : List Char}
    (hdoc : Keyed (.table doc.data)) (h : doc.statement cs = some (doc', rest)) :
    Keyed (.table doc'.data) := by
  rw [Document.statement.eq_def] at h
  split at h
  · obtain ⟨⟨path, after⟩, -, h⟩ := Option.bind_eq_some_iff.mp h
    simp only [] at h
    split at h
    · obtain ⟨opened, hopened, heq⟩ := Option.map_eq_some_iff.mp h
      cases heq
      have hsettled : Keyed (.table doc.settle.data) := hdoc
      exact keyed_openArrayTable hsettled hopened
    · cases h
  · obtain ⟨⟨path, after⟩, -, h⟩ := Option.bind_eq_some_iff.mp h
    simp only [] at h
    split at h
    · obtain ⟨opened, hopened, heq⟩ := Option.map_eq_some_iff.mp h
      cases heq
      have hsettled : Keyed (.table doc.settle.data) := hdoc
      exact keyed_openTable hsettled hopened
    · cases h
  · obtain ⟨⟨path, after⟩, -, h⟩ := Option.bind_eq_some_iff.mp h
    simp only [] at h
    split at h
    · obtain ⟨⟨item, after⟩, hitem, h⟩ := Option.bind_eq_some_iff.mp h
      obtain ⟨assigned, hassigned, heq⟩ := Option.map_eq_some_iff.mp h
      cases heq
      exact keyed_assignment hdoc ((keyed_readers _).value hitem) hassigned
    · cases h

theorem keyed_readLines {steps : Nat} {doc doc' : Document} {cs : List Char}
    (hdoc : Keyed (.table doc.data)) (h : Document.readLines steps doc cs = some doc') :
    Keyed (.table doc'.data) := by
  induction steps generalizing doc cs with
  | zero =>
      rw [Document.readLines] at h
      cases h
  | succ steps ih =>
      rw [Document.readLines] at h
      split at h
      · injection h with h
        rw [← h]
        exact hdoc
      · exact ih hdoc h
      · obtain ⟨⟨read, after⟩, hread, h⟩ := Option.bind_eq_some_iff.mp h
        have hread : Keyed (.table read.data) := by
          split at hread
          · cases hread
            exact hdoc
          · exact keyed_statement hdoc hread
        obtain ⟨after, -, h⟩ := Option.bind_eq_some_iff.mp h
        split at h
        · injection h with h
          rw [← h]
          exact hread
        · exact ih hread h
        · cases h

theorem keyed_parse? {text : List Char} {table : Table} (h : parse? text = some table) :
    Keyed (.table table) := by
  obtain ⟨doc, hdoc, rfl⟩ := Option.map_eq_some_iff.mp h
  exact keyed_readLines keyed_empty hdoc

end JavaMetrics.Settings.Toml
