import JavaMetrics.Syntax.Position
import Mathlib.Algebra.Ring.Nat
import Mathlib.Data.List.Basic

/-!
# Which line an offset lies on

The lines of a source are found twice: an offset is looked up among the offsets at
which lines start, and the text is cut at its line breaks. `lineOf_lineStarts` says
what looking up comes to: it counts the newline bytes before the offset. That holds
for every offset, also for one before the source or behind it.

The other side is bytes put together from blocks without a newline, with one newline
between two of them. `exists_around` takes such bytes apart around one of the blocks,
and `exists_block` finds a block for every offset; together they say that counting
newlines gives the block on which the offset lies, the newline behind a block being
part of it.
-/

namespace JavaMetrics

/-! ## Looking up an offset -/

theorem countP_lineStartsFrom (first : Nat) (code : List UInt8) (offset : Int) :
    (lineStartsFrom first code).countP (fun (start : Nat) => decide ((start : Int) ≤ offset)) =
      (code.take (offset - first).toNat).count newline := by
  induction code generalizing first with
  | nil => simp [lineStartsFrom]
  | cons b rest ih =>
      have hrest := ih (first + 1)
      cases hn : (offset - first).toNat with
      | zero =>
          have hzero : (offset - (first + 1 : Nat)).toNat = 0 := by omega
          rw [hzero, List.take_zero, List.count_nil] at hrest
          rw [lineStartsFrom, List.take_zero, List.count_nil]
          split
          · rw [List.countP_cons_of_neg, hrest]
            rw [decide_eq_true_iff]
            omega
          · exact hrest
      | succ n =>
          have hpred : (offset - (first + 1 : Nat)).toNat = n := by omega
          rw [hpred] at hrest
          rw [lineStartsFrom, List.take_succ_cons, List.count_cons, ← hrest]
          split
          · rw [List.countP_cons_of_pos]
            rw [decide_eq_true_iff]
            omega
          · rfl

/-- An offset lies on the line that is one more than there are newlines before it. -/
theorem lineOf_lineStarts (code : List UInt8) (offset : Int) :
    lineOf (lineStarts code) offset = 1 + (code.take offset.toNat).count newline := by
  have hrest := countP_lineStartsFrom 0 code offset
  rw [Int.natCast_zero, Int.sub_zero] at hrest
  rw [lineOf, lineStarts, List.countP_cons, hrest]
  by_cases hnegative : offset < 0
  · have hzero : offset.toNat = 0 := by omega
    have hbefore : ¬ ((0 : Nat) : Int) ≤ offset := by omega
    rw [hzero, decide_eq_false hbefore]
    rfl
  · have hstart : ((0 : Nat) : Int) ≤ offset := by omega
    rw [decide_eq_true hstart, if_pos rfl]
    omega

theorem lineOf_mono (code : List UInt8) {first second : Int} (h : first ≤ second) :
    lineOf (lineStarts code) first ≤ lineOf (lineStarts code) second := by
  have hle : first.toNat ≤ second.toNat := by omega
  rw [lineOf_lineStarts, lineOf_lineStarts]
  exact Nat.add_le_add_left ((List.take_prefix_take_left hle).sublist.count_le _) _

theorem position_line (code : List UInt8) (offset : Nat) :
    (position code offset).1 + 1 = lineOf (lineStarts code) offset := by
  rw [lineOf_lineStarts, Int.toNat_natCast, Nat.add_comm]
  rfl

/-! ## Blocks of bytes -/

/-- Blocks of bytes with a newline between any two neighbours. -/
def joinBlocks (blocks : List (List UInt8)) : List UInt8 :=
  List.intercalate [newline] blocks

/-- Where a block starts: behind the blocks before it and their newlines. -/
def blockStart (blocks : List (List UInt8)) (i : Nat) : Nat :=
  ((blocks.take i).map fun block => block.length + 1).sum

theorem joinBlocks_singleton (block : List UInt8) : joinBlocks [block] = block :=
  List.intercalate_singleton

theorem joinBlocks_cons {blocks : List (List UInt8)} (h : blocks ≠ []) (block : List UInt8) :
    joinBlocks (block :: blocks) = block ++ newline :: joinBlocks blocks := by
  rw [joinBlocks, List.intercalate_cons_of_ne_nil h, List.append_assoc]
  rfl

theorem blockStart_zero (blocks : List (List UInt8)) : blockStart blocks 0 = 0 := by
  simp [blockStart]

theorem blockStart_succ (block : List UInt8) (blocks : List (List UInt8)) (i : Nat) :
    blockStart (block :: blocks) (i + 1) = block.length + 1 + blockStart blocks i := by
  simp [blockStart]

/-- The bytes around a block: as many newlines are before it as blocks. -/
theorem exists_around {blocks : List (List UInt8)} (h : ∀ block ∈ blocks, newline ∉ block)
    {i : Nat} {block : List UInt8} (hi : blocks[i]? = some block) :
    ∃ front back, joinBlocks blocks = front ++ (block ++ back) ∧
      front.length = blockStart blocks i ∧ front.count newline = i := by
  induction blocks generalizing i with
  | nil => cases hi
  | cons first rest ih =>
      by_cases hrest : rest = []
      · subst hrest
        cases i with
        | zero =>
            cases hi
            exact ⟨[], [], by simp [joinBlocks_singleton], by simp [blockStart_zero], rfl⟩
        | succ i => cases hi
      · rw [joinBlocks_cons hrest]
        cases i with
        | zero =>
            cases hi
            exact ⟨[], newline :: joinBlocks rest, rfl, by simp [blockStart_zero], rfl⟩
        | succ i =>
            rw [List.forall_mem_cons] at h
            obtain ⟨front, back, hjoin, hlength, hcount⟩ := ih h.2 hi
            refine ⟨first ++ newline :: front, back, ?_, ?_, ?_⟩
            · rw [hjoin, List.append_assoc, List.cons_append]
            · rw [blockStart_succ, ← hlength, List.length_append, List.length_cons]
              omega
            · rw [List.count_append, List.count_cons_self, hcount, List.count_eq_zero.mpr h.1]
              omega

/-- Between the start of a block and the newline behind it, its number is the number of newlines
before. -/
theorem count_newline_take {blocks : List (List UInt8)} (h : ∀ block ∈ blocks, newline ∉ block)
    {i : Nat} {block : List UInt8} (hi : blocks[i]? = some block) {offset : Nat}
    (hstart : blockStart blocks i ≤ offset) (hstop : offset ≤ blockStart blocks i + block.length) :
    ((joinBlocks blocks).take offset).count newline = i := by
  obtain ⟨front, back, hjoin, hlength, hcount⟩ := exists_around h hi
  have hinside : newline ∉ block.take (offset - front.length) := fun hmem =>
    h block (List.mem_of_getElem? hi) (List.mem_of_mem_take hmem)
  rw [hjoin, List.take_append, List.take_of_length_le (by omega),
    List.take_append_of_le_length (by omega), List.count_append, hcount,
    List.count_eq_zero.mpr hinside]
  omega

theorem slice_joinBlocks {blocks : List (List UInt8)} (h : ∀ block ∈ blocks, newline ∉ block)
    {i : Nat} {block : List UInt8} (hi : blocks[i]? = some block) :
    slice (joinBlocks blocks) (blockStart blocks i) (blockStart blocks i + block.length) =
      block := by
  obtain ⟨front, back, hjoin, hlength, -⟩ := exists_around h hi
  rw [slice, hjoin, ← hlength, List.drop_left, Nat.add_sub_cancel_left, List.take_left]

/-- Every offset lies on a block or on the newline behind it. -/
theorem exists_block {blocks : List (List UInt8)} (hne : blocks ≠ []) {offset : Nat}
    (h : offset ≤ (joinBlocks blocks).length) :
    ∃ i block, blocks[i]? = some block ∧ blockStart blocks i ≤ offset ∧
      offset ≤ blockStart blocks i + block.length := by
  induction blocks generalizing offset with
  | nil => exact absurd rfl hne
  | cons first rest ih =>
      by_cases hfirst : offset ≤ first.length
      · exact ⟨0, first, rfl, by simp [blockStart_zero], by simpa [blockStart_zero] using hfirst⟩
      · by_cases hrest : rest = []
        · rw [hrest, joinBlocks_singleton] at h
          exact absurd h hfirst
        · rw [joinBlocks_cons hrest, List.length_append, List.length_cons] at h
          have hbehind : offset - (first.length + 1) ≤ (joinBlocks rest).length := by omega
          obtain ⟨i, block, hi, hstart, hstop⟩ := ih hrest hbehind
          refine ⟨i + 1, block, hi, ?_, ?_⟩
          · rw [blockStart_succ]
            omega
          · rw [blockStart_succ]
            omega

end JavaMetrics
