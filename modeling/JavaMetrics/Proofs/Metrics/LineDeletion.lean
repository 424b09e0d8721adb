import JavaMetrics.Proofs.Metrics.LineCount
import Mathlib.Data.Finset.Basic

/-!
# Lines that can be left out

Leaving out lines that do not count may change how the lines after them are read:
without the line that opens a block comment its other lines are taken for code,
and without the line that closes it the code behind it is taken for comment. So
lines are left out with care for the regions of block comments, as the scanner
sees them. Of each region either all lines go, or the first line and the closing
one stay.

Under that condition the scan of what is left runs in step with the scan of all
lines. The two are in the same state before every line that stays; they differ
only inside a region that is gone as a whole, where the shorter scan waits outside
for the longer one to come back (`InStep`). So what stays is counted
as it was (`marks_without`), and the count does not change if what goes did not
count (`count_without`).
-/

namespace JavaMetrics.Metrics.Loc

/-! ## Leaving items out of a list -/

section Without

variable {α : Type}

/-- A list without the items at some positions. -/
def without (removed : Finset Nat) (items : List α) : List α :=
  (items.zipIdx.filter fun item => item.2 ∉ removed).map Prod.fst

theorem without_concat (removed : Finset Nat) (items : List α) (item : α) :
    without removed (items ++ [item]) =
      without removed items ++ if items.length ∈ removed then [] else [item] := by
  by_cases h : items.length ∈ removed <;>
    simp [without, List.zipIdx_append, h]

/-- Leaving out items of other values does not change how often a value occurs. -/
theorem count_without [DecidableEq α] {removed : Finset Nat} {items : List α} {value : α}
    (h : ∀ i ∈ removed, items[i]? ≠ some value) :
    (without removed items).count value = items.count value := by
  have hkept : ∀ item ∈ items.zipIdx,
      (item.1 == value && decide (item.2 ∉ removed)) = true ↔ (item.1 == value) = true := by
    intro item hitem
    simp only [Bool.and_eq_true, beq_iff_eq, decide_eq_true_eq, and_iff_left_iff_imp]
    intro hvalue hremoved
    rw [List.mem_zipIdx_iff_getElem?, hvalue] at hitem
    exact h item.2 hremoved hitem
  have hall : items.count value = items.zipIdx.countP fun item => item.1 == value := by
    conv => lhs; rw [← List.zipIdx_map_fst 0 items]
    rw [List.count, List.countP_map]
    rfl
  rw [hall, without, List.count, List.countP_map, List.countP_filter]
  exact List.countP_congr hkept

end Without

/-! ## Regions of block comments -/

/-- Where the scanner is before a line, the lines being numbered from zero. -/
def stateAt (lines : List String) (i : Nat) : State :=
  stateAfter .code (lines.take i)

theorem stateAfter_concat (state : State) (lines : List String) (line : String) :
    stateAfter state (lines ++ [line]) = (step (stateAfter state lines) line).1 := by
  rw [stateAfter_append]
  rfl

theorem stateAt_succ {lines : List String} {i : Nat} (h : i < lines.length) :
    stateAt lines (i + 1) = (step (stateAt lines i) lines[i]).1 := by
  rw [stateAt, List.take_succ_eq_append_getElem h, stateAfter_concat]
  rfl

/-- The lines from one on which the scanner enters a block comment to the one on which it leaves it,
or to the last line if it never does. -/
structure BlockRegion (lines : List String) (first last : Nat) : Prop where
  range : first ≤ last ∧ last < lines.length
  enters : stateAt lines first = .code ∧ stateAt lines (first + 1) = .block
  stays : ∀ i ≤ last, first < i → stateAt lines i = .block
  ends : stateAt lines (last + 1) = .code ∨ last + 1 = lines.length

/-- All lines of a region are removed, or the first one stays and so does the one that closes it, if
there is one. -/
def Spares (lines : List String) (removed : Finset Nat) (first last : Nat) : Prop :=
  (∀ i ≤ last, first ≤ i → i ∈ removed) ∨
    (first ∉ removed ∧ (stateAt lines (last + 1) = .code → last ∉ removed))

def SparesRegions (lines : List String) (removed : Finset Nat) : Prop :=
  ∀ first < lines.length, ∀ last < lines.length,
    BlockRegion lines first last → Spares lines removed first last

instance (lines : List String) (first last : Nat) : Decidable (BlockRegion lines first last) :=
  decidable_of_iff
    ((first ≤ last ∧ last < lines.length) ∧
      (stateAt lines first = .code ∧ stateAt lines (first + 1) = .block) ∧
      (∀ i ≤ last, first < i → stateAt lines i = .block) ∧
      (stateAt lines (last + 1) = .code ∨ last + 1 = lines.length))
    ⟨fun h => ⟨h.1, h.2.1, h.2.2.1, h.2.2.2⟩, fun h => ⟨h.range, h.enters, h.stays, h.ends⟩⟩

instance (lines : List String) (removed : Finset Nat) (first last : Nat) :
    Decidable (Spares lines removed first last) :=
  inferInstanceAs (Decidable (_ ∨ _))

instance (lines : List String) (removed : Finset Nat) : Decidable (SparesRegions lines removed) :=
  inferInstanceAs (Decidable (∀ first < lines.length, _))

/-- Is the scanner, before a line, in the block comment that it entered on an earlier one? -/
structure OpenSince (lines : List String) (first i : Nat) : Prop where
  before : first < i
  outside : stateAt lines first = .code
  inside : ∀ j ≤ i, first < j → stateAt lines j = .block

variable {lines : List String} {removed : Finset Nat} {first i : Nat}

theorem OpenSince.stateAt_eq (h : OpenSince lines first i) : stateAt lines i = .block :=
  h.inside i (Nat.le_refl i) h.before

theorem openSince_of_enters (hcode : stateAt lines i = .code)
    (hblock : stateAt lines (i + 1) = .block) : OpenSince lines i (i + 1) where
  before := Nat.lt_succ_self i
  outside := hcode
  inside := by
    intro j hj hlt
    obtain rfl : j = i + 1 := by omega
    exact hblock

theorem OpenSince.succ (h : OpenSince lines first i) (hblock : stateAt lines (i + 1) = .block) :
    OpenSince lines first (i + 1) where
  before := Nat.lt_succ_of_lt h.before
  outside := h.outside
  inside := by
    intro j hj hlt
    rcases Nat.lt_or_eq_of_le hj with hle | rfl
    · exact h.inside j (by omega) hlt
    · exact hblock

/-- A comment that is open after a line was entered on it, or was open before. -/
theorem OpenSince.pred (h : OpenSince lines first (i + 1)) :
    first = i ∧ stateAt lines i = .code ∨ OpenSince lines first i := by
  rcases Nat.lt_or_eq_of_le (Nat.le_of_lt_succ h.before) with hlt | rfl
  · exact .inr ⟨hlt, h.outside, fun j hj => h.inside j (by omega)⟩
  · exact .inl ⟨rfl, h.outside⟩

theorem exists_openSince (h : stateAt lines i = .block) : ∃ first, OpenSince lines first i := by
  induction i with
  | zero => cases h
  | succ i ih =>
      cases hstate : stateAt lines i with
      | code => exact ⟨i, openSince_of_enters hstate h⟩
      | block =>
          obtain ⟨first, hopen⟩ := ih hstate
          exact ⟨first, hopen.succ h⟩

/-- A line that is read inside a block comment belongs to a region. -/
theorem OpenSince.exists_region (h : OpenSince lines first i) (hi : i < lines.length) :
    ∃ last, i ≤ last ∧ BlockRegion lines first last := by
  have henters : stateAt lines first = .code ∧ stateAt lines (first + 1) = .block :=
    ⟨h.outside, h.inside (first + 1) h.before (Nat.lt_succ_self first)⟩
  -- the induction is on the number of lines after this one
  obtain ⟨n, hn⟩ : ∃ n, lines.length = i + 1 + n := ⟨lines.length - (i + 1), by omega⟩
  induction n generalizing i with
  | zero =>
      have hlt := h.before
      exact ⟨i, Nat.le_refl i, ⟨by omega, hi⟩, henters, h.inside, .inr hn.symm⟩
  | succ n ih =>
      cases hnext : stateAt lines (i + 1) with
      | code =>
          have hlt := h.before
          exact ⟨i, Nat.le_refl i, ⟨by omega, hi⟩, henters, h.inside, .inl hnext⟩
      | block =>
          obtain ⟨last, hle, hregion⟩ := ih (h.succ hnext) (by omega) (by omega)
          exact ⟨last, by omega, hregion⟩

/-! ## Two scans in step -/

/-- Is the line read inside a block comment whose first line is removed? -/
def Gone (lines : List String) (removed : Finset Nat) (i : Nat) : Prop :=
  ∃ first, OpenSince lines first i ∧ first ∈ removed

theorem Gone.stateAt_eq (h : Gone lines removed i) : stateAt lines i = .block := by
  obtain ⟨first, hopen, -⟩ := h
  exact hopen.stateAt_eq

theorem Gone.mem (hspares : SparesRegions lines removed) (h : Gone lines removed i)
    (hi : i < lines.length) : i ∈ removed := by
  obtain ⟨first, hopen, hfirst⟩ := h
  obtain ⟨last, hle, hregion⟩ := hopen.exists_region hi
  have hlt := hopen.before
  rcases hspares first (by omega) last hregion.range.2 hregion with hall | hends
  · exact hall i hle (by omega)
  · exact absurd hfirst hends.1

/-- A line that closes a comment is removed only with the whole comment. -/
theorem not_mem_of_closes (hspares : SparesRegions lines removed) (hgone : ¬ Gone lines removed i)
    (hi : i < lines.length) (hblock : stateAt lines i = .block)
    (hcode : stateAt lines (i + 1) = .code) : i ∉ removed := by
  obtain ⟨first, hopen⟩ := exists_openSince hblock
  have hlt := hopen.before
  have hregion : BlockRegion lines first i :=
    ⟨⟨by omega, hi⟩, ⟨hopen.outside, hopen.inside (first + 1) hlt (Nat.lt_succ_self first)⟩,
      hopen.inside, .inl hcode⟩
  rcases hspares first (by omega) i hi hregion with hall | hends
  · exact absurd ⟨first, hopen, hall first (by omega) (Nat.le_refl first)⟩ hgone
  · exact hends.2 hcode

/-- A comment that is open after a line is gone if it was gone before, or if the line that opens it is
removed. -/
theorem gone_succ_iff (hnext : stateAt lines (i + 1) = .block) :
    Gone lines removed (i + 1) ↔
      Gone lines removed i ∨ stateAt lines i = .code ∧ i ∈ removed := by
  constructor
  · intro ⟨first, hopen, hfirst⟩
    rcases hopen.pred with ⟨rfl, hcode⟩ | hbefore
    · exact .inr ⟨hcode, hfirst⟩
    · exact .inl ⟨first, hbefore, hfirst⟩
  · intro h
    rcases h with ⟨first, hopen, hfirst⟩ | ⟨hcode, hi⟩
    · exact ⟨first, hopen.succ hnext, hfirst⟩
    · exact ⟨i, openSince_of_enters hcode hnext, hi⟩

/-- Where the scan of the remaining lines is when that of all lines comes to a line. -/
def remainingState (lines : List String) (removed : Finset Nat) (i : Nat) : State :=
  stateAfter .code (without removed (lines.take i))

theorem without_take_succ (removed : Finset Nat) (h : i < lines.length) :
    without removed (lines.take (i + 1)) =
      without removed (lines.take i) ++ if i ∈ removed then [] else [lines[i]] := by
  rw [List.take_succ_eq_append_getElem h, without_concat,
    List.length_take_of_le (Nat.le_of_lt h)]

theorem remainingState_succ_of_mem (h : i < lines.length) (hi : i ∈ removed) :
    remainingState lines removed (i + 1) = remainingState lines removed i := by
  rw [remainingState, without_take_succ removed h, if_pos hi, List.append_nil]
  rfl

theorem remainingState_succ_of_not_mem (h : i < lines.length) (hi : i ∉ removed) :
    remainingState lines removed (i + 1) = (step (remainingState lines removed i) lines[i]).1 := by
  rw [remainingState, without_take_succ removed h, if_neg hi, stateAfter_concat]
  rfl

/-- The two scans are in the same state, except inside a comment that is gone, where the scan of the
remaining lines is outside. -/
structure InStep (lines : List String) (removed : Finset Nat) (i : Nat) : Prop where
  same : ¬ Gone lines removed i → remainingState lines removed i = stateAt lines i
  waits : Gone lines removed i → remainingState lines removed i = .code

theorem inStep_of_same (hsame : remainingState lines removed i = stateAt lines i)
    (hgone : ¬ Gone lines removed i) : InStep lines removed i :=
  ⟨fun _ => hsame, fun h => absurd h hgone⟩

theorem inStep_of_code (hcode : remainingState lines removed i = .code)
    (hgone : stateAt lines i = .block → Gone lines removed i) : InStep lines removed i where
  same := by
    intro hnot
    cases hstate : stateAt lines i with
    | code => exact hcode
    | block => exact absurd (hgone hstate) hnot
  waits _ := hcode

theorem InStep.succ (hspares : SparesRegions lines removed) (h : InStep lines removed i)
    (hi : i < lines.length) : InStep lines removed (i + 1) := by
  by_cases hgone : Gone lines removed i
  · -- of a comment that is gone no line remains
    have hwaits := remainingState_succ_of_mem hi (hgone.mem hspares hi)
    rw [h.waits hgone] at hwaits
    exact inStep_of_code hwaits fun hnext => (gone_succ_iff hnext).mpr (.inl hgone)
  have hsame := h.same hgone
  by_cases hremoved : i ∈ removed
  · have hwaits := remainingState_succ_of_mem hi hremoved
    rw [hsame] at hwaits
    cases hstate : stateAt lines i with
    | code =>
        rw [hstate] at hwaits
        exact inStep_of_code hwaits fun hnext =>
          (gone_succ_iff hnext).mpr (.inr ⟨hstate, hremoved⟩)
    | block =>
        cases hnext : stateAt lines (i + 1) with
        | code => exact absurd hremoved (not_mem_of_closes hspares hgone hi hstate hnext)
        | block =>
            apply inStep_of_same
            · rw [hwaits, hstate, hnext]
            · simp [gone_succ_iff hnext, hgone, hstate]
  · have hsteps := remainingState_succ_of_not_mem hi hremoved
    rw [hsame, ← stateAt_succ hi] at hsteps
    apply inStep_of_same hsteps
    intro hlater
    rcases (gone_succ_iff hlater.stateAt_eq).mp hlater with hbefore | ⟨-, hmem⟩
    · exact hgone hbefore
    · exact hremoved hmem

theorem inStep (hspares : SparesRegions lines removed) (hi : i ≤ lines.length) :
    InStep lines removed i := by
  induction i with
  | zero =>
      apply inStep_of_same rfl
      intro hgone
      cases hgone.stateAt_eq
  | succ i ih => exact (ih (by omega)).succ hspares (by omega)

/-! ## What stays is counted as it was -/

theorem remainingState_of_not_mem (hspares : SparesRegions lines removed) (hi : i < lines.length)
    (hstays : i ∉ removed) : remainingState lines removed i = stateAt lines i := by
  apply (inStep hspares (Nat.le_of_lt hi)).same
  intro hgone
  exact hstays (hgone.mem hspares hi)

theorem marks_concat (state : State) (lines : List String) (line : String) :
    marks state (lines ++ [line]) =
      marks state lines ++ [(step (stateAfter state lines) line).2] := by
  rw [marks_append]
  rfl

theorem marks_without_take (hspares : SparesRegions lines removed) (hi : i ≤ lines.length) :
    marks .code (without removed (lines.take i)) =
      without removed (marks .code (lines.take i)) := by
  induction i with
  | zero => rfl
  | succ i ih =>
      have hlt : i < lines.length := by omega
      have hlength : (marks .code (lines.take i)).length = i := by
        rw [length_marks, List.length_take_of_le (Nat.le_of_lt hlt)]
      rw [without_take_succ removed hlt, List.take_succ_eq_append_getElem hlt, marks_concat,
        without_concat, hlength, ← ih (Nat.le_of_lt hlt)]
      by_cases hremoved : i ∈ removed
      · rw [if_pos hremoved, if_pos hremoved, List.append_nil, List.append_nil]
      · have hstate := remainingState_of_not_mem hspares hlt hremoved
        rw [remainingState, stateAt] at hstate
        rw [if_neg hremoved, if_neg hremoved, marks_concat, hstate]

theorem marks_without (hspares : SparesRegions lines removed) :
    marks .code (without removed lines) = without removed (marks .code lines) := by
  have htake := marks_without_take hspares (Nat.le_refl lines.length)
  rwa [List.take_length] at htake

theorem count_lines_without (huncounted : ∀ i ∈ removed, (marks .code lines)[i]? = some false)
    (hspares : SparesRegions lines removed) : count (without removed lines) = count lines := by
  rw [count, count, marks_without hspares]
  apply count_without
  intro i hi
  rw [huncounted i hi]
  decide

/-- What becomes of some lines when others are removed. -/
structure DeletionAccount (lines : List String) (removed : Finset Nat) : Prop where
  /-- The remaining lines count as they did among all lines. -/
  kept : marks .code (without removed lines) = without removed (marks .code lines)
  count : countRange (without removed lines) 1 (without removed lines).length =
    countRange lines 1 lines.length

/-- Lines that do not count can be removed if of each block comment all lines go, or the first and
the closing one stay. -/
theorem uncounted_lines_are_removable (lines : List String) (removed : Finset Nat)
    (huncounted : ∀ i ∈ removed, (marks .code lines)[i]? = some false)
    (hspares : SparesRegions lines removed) : DeletionAccount lines removed where
  kept := marks_without hspares
  count := by
    rw [countRange_all, countRange_all]
    exact count_lines_without huncounted hspares

-- Without the line that opens it, the inside of a comment is taken for code.
example : count ["/*", "a", "*/"] = 0 ∧ count (without {0} ["/*", "a", "*/"]) = 1 := by decide

/-- A comment with code behind it, of which only the inside can go, one that can go as a whole, and
one that is never closed. -/
def commentedLines : List String :=
  ["/* one", "inside", "*/ int a;", "", "/*", "two", "*/", "// three", "int b;", "/* four", "* five"]

theorem uncounted_lines_of_comments :
    marks .code commentedLines =
        [false, false, true, false, false, false, false, false, true, false, false] ∧
      without {1, 3, 4, 5, 6, 7, 10} commentedLines = ["/* one", "*/ int a;", "int b;", "/* four"] ∧
      DeletionAccount commentedLines {1, 3, 4, 5, 6, 7, 10} := by
  refine ⟨by decide, by decide, uncounted_lines_are_removable _ _ ?_ ?_⟩
  · decide
  · decide

end JavaMetrics.Metrics.Loc
