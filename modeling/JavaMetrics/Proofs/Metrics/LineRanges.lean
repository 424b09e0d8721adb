import JavaMetrics.Proofs.Java.SourceLines
import JavaMetrics.Proofs.Metrics.LineCount
import Mathlib.Data.Finset.Card
import Mathlib.Data.Finset.Range

/-!
# Counts of ranges of lines

Every count of a range starts outside of comments, wherever in the file the range
starts, so the counts of two neighbouring ranges need not add up to the count of
both. They do as far as the scan of the larger range is outside of comments too
when it comes to the start of the smaller one. From there on the two scans are the
same, and what the smaller one counts the larger one counts as well
(`CountedFrom.of_restart`).

So the count of a range is best seen as the size of a set of lines
(`countRange_eq_card`). Ranges that have no line in common have disjoint sets, and
the bound on the sum of their counts is one on the size of a disjoint union
(`sum_card_le`). The ends of a range may be anywhere, while the sets hold only lines
that there are, so that nothing has to be said about moving the ends.
-/

namespace JavaMetrics.Metrics

namespace Loc

variable {lines : List String} {first last start : Int} {inner outer : Int × Int} {i : Nat}

/-! ## Ranges line by line -/

theorem range_of_lt (h : last < first) : range lines first last = [] := by
  rw [range, List.drop_eq_nil_iff, List.length_take]
  omega

theorem range_of_nonpos (h : last ≤ 0) : range lines first last = [] := by
  rw [range, List.drop_eq_nil_iff, List.length_take]
  omega

/-- The next line belongs to a range that has started, if there is one. -/
theorem range_succ (lines : List String) (first : Int) (n : Nat) :
    range lines first (n + 1) =
      range lines first n ++ if first ≤ n + 1 then lines[n]?.toList else [] := by
  by_cases hfirst : first ≤ n + 1
  · rw [if_pos hfirst, range, range]
    by_cases hlt : n < lines.length
    · have htake : (min (n + 1 : Int) lines.length).toNat = n + 1 := by omega
      have htake' : (min (n : Int) lines.length).toNat = n := by omega
      rw [htake, htake', List.getElem?_eq_getElem hlt, List.take_succ_eq_append_getElem hlt,
        List.drop_append_of_le_length]
      · rfl
      · rw [List.length_take]
        omega
    · have htake : min (n + 1 : Int) lines.length = min (n : Int) lines.length := by omega
      rw [htake, List.getElem?_eq_none (by omega)]
      simp
  · rw [if_neg hfirst, range_of_lt (by omega), range_of_lt (by omega)]
    rfl

/-- A range can be cut before any line of it. -/
theorem range_append (hfirst : first ≤ start) (n : Nat) (hlast : start ≤ n + 1) :
    range lines first n = range lines first (start - 1) ++ range lines start n := by
  induction n with
  | zero =>
      rw [range_of_nonpos (by simp), range_of_nonpos (by omega), range_of_nonpos (by simp)]
      rfl
  | succ n ih =>
      have hcast : ((n + 1 : Nat) : Int) = n + 1 := by omega
      rw [hcast] at hlast ⊢
      by_cases hstart : start ≤ n + 1
      · rw [range_succ, range_succ, ih hstart, if_pos (by omega), if_pos hstart,
          List.append_assoc]
      · have heq : start - 1 = n + 1 := by omega
        rw [heq, range_of_lt (by omega : (n + 1 : Int) < start), List.append_nil]

/-! ## The lines that a scan counts -/

/-- Is a line with this number in a range? -/
def Holds (range : Int × Int) (number : Int) : Prop :=
  range.1 ≤ number ∧ number ≤ range.2

instance (range : Int × Int) (number : Int) : Decidable (Holds range number) :=
  inferInstanceAs (Decidable (_ ∧ _))

/-- Where the scanner is when it has started at one line and reaches another. -/
def stateOn (lines : List String) (first number : Int) : State :=
  stateAfter .code (range lines first (number - 1))

theorem stateOn_succ (lines : List String) (first : Int) (i : Nat) :
    stateOn lines first (i + 1) = stateAfter .code (range lines first i) := by
  rw [stateOn, Int.add_sub_cancel]

/-- Does a scan that starts at a line count the one at this position? Positions are one less than
numbers. -/
def CountedFrom (lines : List String) (first : Int) (i : Nat) : Prop :=
  ∃ line ∈ lines[i]?, (step (stateOn lines first (i + 1)) line).2 = true

instance (lines : List String) (first : Int) (i : Nat) : Decidable (CountedFrom lines first i) :=
  decidable_of_iff (lines[i]?.any fun line => (step (stateOn lines first (i + 1)) line).2) (by
    cases h : lines[i]? <;> simp [CountedFrom, h])

theorem CountedFrom.lt (h : CountedFrom lines first i) : i < lines.length := by
  obtain ⟨line, hline, -⟩ := h
  exact (List.getElem?_eq_some_iff.mp hline).1

/-- The positions of the lines that are counted in a range. -/
def countedLines (lines : List String) (range : Int × Int) : Finset Nat :=
  (Finset.range lines.length).filter fun i => Holds range (i + 1) ∧ CountedFrom lines range.1 i

theorem mem_countedLines {range : Int × Int} :
    i ∈ countedLines lines range ↔ Holds range (i + 1) ∧ CountedFrom lines range.1 i := by
  rw [countedLines, Finset.mem_filter, Finset.mem_range, and_iff_right_iff_imp]
  intro h
  exact h.2.lt

theorem count_append (front back : List String) :
    count (front ++ back) = count front + (marks (stateAfter .code front) back).count true := by
  rw [count, marks_append, List.count_append, count]

theorem count_marks_line (lines : List String) (first : Int) (n : Nat) :
    (marks (stateOn lines first (n + 1)) lines[n]?.toList).count true =
      if CountedFrom lines first n then 1 else 0 := by
  cases hline : lines[n]? with
  | none =>
      have hnot : ¬ CountedFrom lines first n := by simp [CountedFrom, hline]
      rw [if_neg hnot]
      rfl
  | some line =>
      have hiff : CountedFrom lines first n ↔
          (step (stateOn lines first (n + 1)) line).2 = true := by
        simp [CountedFrom, hline]
      rw [Option.toList_some, marks_cons, marks, List.count_singleton]
      simp [hiff]

theorem countRange_succ (lines : List String) (first : Int) (n : Nat) :
    countRange lines first (n + 1) =
      countRange lines first n + if first ≤ n + 1 ∧ CountedFrom lines first n then 1 else 0 := by
  rw [countRange, countRange, range_succ, count_append, ← stateOn_succ]
  by_cases hfirst : first ≤ n + 1
  · rw [if_pos hfirst, count_marks_line]
    simp [hfirst]
  · simp [hfirst, marks]

theorem countedLines_succ (lines : List String) (first : Int) (n : Nat) :
    countedLines lines (first, n + 1) =
      if first ≤ n + 1 ∧ CountedFrom lines first n then insert n (countedLines lines (first, n))
      else countedLines lines (first, n) := by
  have hlast : ∀ i : Nat, (i : Int) + 1 ≤ n + 1 ↔ i = n ∨ (i : Int) + 1 ≤ n := by
    intro i
    omega
  split
  · next h =>
      ext i
      simp only [Finset.mem_insert, mem_countedLines, Holds, hlast]
      constructor
      · intro ⟨⟨hfirst, hi⟩, hcounted⟩
        exact hi.imp_right fun hle => ⟨⟨hfirst, hle⟩, hcounted⟩
      · intro hi
        rcases hi with rfl | ⟨⟨hfirst, hle⟩, hcounted⟩
        · exact ⟨⟨h.1, .inl rfl⟩, h.2⟩
        · exact ⟨⟨hfirst, .inr hle⟩, hcounted⟩
  · next h =>
      ext i
      simp only [mem_countedLines, Holds, hlast]
      constructor
      · intro ⟨⟨hfirst, hi⟩, hcounted⟩
        rcases hi with rfl | hle
        · exact absurd ⟨hfirst, hcounted⟩ h
        · exact ⟨⟨hfirst, hle⟩, hcounted⟩
      · intro ⟨⟨hfirst, hle⟩, hcounted⟩
        exact ⟨⟨hfirst, .inr hle⟩, hcounted⟩

theorem countedLines_of_nonpos (h : last ≤ 0) : countedLines lines (first, last) = ∅ := by
  apply Finset.eq_empty_of_forall_notMem
  intro i hi
  have hle := (mem_countedLines.mp hi).1.2
  simp only at hle
  omega

/-- The count of a range is the number of the lines that are counted in it. -/
theorem countRange_eq_card (lines : List String) (first last : Int) :
    countRange lines first last = (countedLines lines (first, last)).card := by
  rcases Int.lt_or_le 0 last with hpos | hle
  · obtain ⟨n, rfl⟩ : ∃ n : Nat, last = n := ⟨last.toNat, by omega⟩
    clear hpos
    induction n with
    | zero =>
        rw [countRange, range_of_nonpos (by simp), countedLines_of_nonpos (by simp)]
        rfl
    | succ n ih =>
        have hcast : ((n + 1 : Nat) : Int) = n + 1 := by omega
        have hnew : n ∉ countedLines lines (first, n) := by
          rw [mem_countedLines, Holds]
          omega
        rw [hcast, countRange_succ, countedLines_succ, ih]
        split
        · exact (Finset.card_insert_of_notMem hnew).symm
        · rfl
  · rw [countRange, range_of_nonpos hle, countedLines_of_nonpos hle]
    rfl

/-! ## Ranges inside of ranges -/

/-- Is a scan that starts at one line outside of comments when it reaches another? A line behind the
last one is never reached. -/
def ReachedInCode (lines : List String) (first number : Int) : Prop :=
  number ≤ lines.length → stateOn lines first number = .code

/-- Does a range lie inside another one, as far as there are lines? -/
def Inside (lines : List String) (inner outer : Int × Int) : Prop :=
  ∀ number ≤ (lines.length : Int), Holds inner number → Holds outer number

/-- Do two ranges have no line in common? -/
def Apart (inner outer : Int × Int) : Prop :=
  ∀ number, ¬ (Holds inner number ∧ Holds outer number)

theorem inside_iff : Inside lines inner outer ↔
    inner.2 < inner.1 ∨ lines.length < inner.1 ∨
      outer.1 ≤ inner.1 ∧ (inner.2 ≤ outer.2 ∨ lines.length ≤ outer.2) := by
  constructor
  · intro h
    have hstart := h inner.1
    have hstop := h inner.2
    have hlast := h lines.length (Int.le_refl _)
    simp only [Holds] at hstart hstop hlast
    omega
  · intro h number hle hholds
    simp only [Holds] at hholds ⊢
    omega

theorem apart_iff : Apart inner outer ↔
    inner.2 < inner.1 ∨ outer.2 < outer.1 ∨ inner.2 < outer.1 ∨ outer.2 < inner.1 := by
  constructor
  · intro h
    have hinner := h inner.1
    have houter := h outer.1
    simp only [Holds] at hinner houter
    omega
  · intro h number hboth
    simp only [Holds] at hboth
    omega

instance (lines : List String) (first number : Int) :
    Decidable (ReachedInCode lines first number) :=
  inferInstanceAs (Decidable (number ≤ lines.length → _))

instance (lines : List String) (inner outer : Int × Int) : Decidable (Inside lines inner outer) :=
  decidable_of_iff _ inside_iff.symm

instance (inner outer : Int × Int) : Decidable (Apart inner outer) :=
  decidable_of_iff _ apart_iff.symm

/-- A scan that starts anew outside of comments counts nothing that the longer one does not. -/
theorem CountedFrom.of_restart (h : CountedFrom lines start i) (hfirst : first ≤ start)
    (hstart : start ≤ i + 1) (hcode : ReachedInCode lines first start) :
    CountedFrom lines first i := by
  have hlt := h.lt
  have hstate : stateOn lines first (i + 1) = stateOn lines start (i + 1) := by
    have hreached := hcode (by omega)
    rw [stateOn] at hreached
    rw [stateOn_succ, stateOn_succ, range_append hfirst i hstart, stateAfter_append, hreached]
  obtain ⟨line, hline, hcounted⟩ := h
  exact ⟨line, hline, by rw [hstate]; exact hcounted⟩

theorem countedLines_subset (hinside : Inside lines inner outer)
    (hcode : ReachedInCode lines outer.1 inner.1) :
    countedLines lines inner ⊆ countedLines lines outer := by
  intro i hi
  obtain ⟨hholds, hcounted⟩ := mem_countedLines.mp hi
  have hlt := hcounted.lt
  have hstarts : Holds inner inner.1 := ⟨Int.le_refl _, Int.le_trans hholds.1 hholds.2⟩
  have hle : inner.1 ≤ (lines.length : Int) := by
    have hstart := hholds.1
    omega
  have houter := hinside inner.1 hle hstarts
  exact mem_countedLines.mpr ⟨hinside (i + 1) (by omega) hholds,
    hcounted.of_restart houter.1 hholds.1 hcode⟩

/-- Disjoint parts of a set together have no more elements than it has. -/
theorem sum_card_le {ι : Type} (part : ι → Finset Nat) {indices : List ι} {whole : Finset Nat}
    (hsubset : ∀ i ∈ indices, part i ⊆ whole)
    (hdisjoint : indices.Pairwise fun i j => ∀ n ∈ part i, n ∉ part j) :
    (indices.map fun i => (part i).card).sum ≤ whole.card := by
  induction indices generalizing whole with
  | nil => simp
  | cons i indices ih =>
      rw [List.forall_mem_cons] at hsubset
      rw [List.pairwise_cons] at hdisjoint
      have hrest : ∀ j ∈ indices, part j ⊆ whole \ part i := by
        intro j hj n hn
        rw [Finset.mem_sdiff]
        exact ⟨hsubset.2 j hj hn, fun hi => hdisjoint.1 j hj n hi hn⟩
      have hle := ih hrest hdisjoint.2
      have hcard := Finset.card_sdiff_add_card_eq_card hsubset.1
      rw [List.map_cons, List.sum_cons]
      omega

theorem sum_countRange_le (outer : Int × Int) {ranges : List (Int × Int)}
    (hinside : ∀ range ∈ ranges, Inside lines range outer) (hapart : ranges.Pairwise Apart)
    (hcode : ∀ range ∈ ranges, ReachedInCode lines outer.1 range.1) :
    (ranges.map fun range => countRange lines range.1 range.2).sum ≤
      countRange lines outer.1 outer.2 := by
  simp only [countRange_eq_card]
  apply sum_card_le (countedLines lines)
  · intro range hrange
    exact countedLines_subset (hinside range hrange) (hcode range hrange)
  · refine hapart.imp fun hpair i hfirst hsecond => ?_
    exact hpair (i + 1) ⟨(mem_countedLines.mp hfirst).1, (mem_countedLines.mp hsecond).1⟩

theorem countRange_le (hinside : Inside lines inner outer)
    (hcode : ReachedInCode lines outer.1 inner.1) :
    countRange lines inner.1 inner.2 ≤ countRange lines outer.1 outer.2 := by
  rw [countRange_eq_card, countRange_eq_card]
  exact Finset.card_le_card (countedLines_subset hinside hcode)

theorem countRange_mono (lines : List String) (first : Int) {last later : Int}
    (h : last ≤ later) : countRange lines first last ≤ countRange lines first later := by
  have hinside : Inside lines (first, last) (first, later) := by
    intro number _ hholds
    exact ⟨hholds.1, Int.le_trans hholds.2 h⟩
  apply countRange_le hinside
  intro _
  rw [stateOn, range_of_lt (Int.sub_one_lt_of_le (Int.le_refl first))]
  rfl

/-- How the counts of ranges compare with the count of a range around them. -/
structure RangeAccount (lines : List String) : Prop where
  disjoint : ∀ (first last : Int) (ranges : List (Int × Int)),
    (∀ range ∈ ranges, Inside lines range (first, last)) → ranges.Pairwise Apart →
    (∀ range ∈ ranges, ReachedInCode lines first range.1) →
      (ranges.map fun range => countRange lines range.1 range.2).sum ≤ countRange lines first last
  monotone : ∀ first last later : Int, last ≤ later →
    countRange lines first last ≤ countRange lines first later

end Loc

/-! ## The lines of types -/

open Java (CompilationUnit TypeDeclaration SpanInside spanInside_of_le)
open Loc (Inside Apart ReachedInCode countRange)

variable {unit : CompilationUnit} {type inner outer : TypeDeclaration}

/-- The numbers of the first and the last line of a type, as a range. -/
def linesOf (unit : CompilationUnit) (type : TypeDeclaration) : Int × Int :=
  ((unit.lineRange type).1, (unit.lineRange type).2)

theorem typeLoc_eq_countRange (unit : CompilationUnit) (type : TypeDeclaration) :
    typeLoc unit type = countRange unit.lines (linesOf unit type).1 (linesOf unit type).2 := by
  rw [CompilationUnit.typeLoc_eq, linesOf]

theorem typeLoc_le (hinside : Inside unit.lines (linesOf unit inner) (linesOf unit outer))
    (hcode : ReachedInCode unit.lines (linesOf unit outer).1 (linesOf unit inner).1) :
    typeLoc unit inner ≤ typeLoc unit outer := by
  rw [typeLoc_eq_countRange, typeLoc_eq_countRange]
  exact Loc.countRange_le hinside hcode

/-- A type whose bytes lie inside those of another one has its lines there. -/
theorem inside_of_spanInside (h : SpanInside (inner.span unit.code) (outer.span unit.code)) :
    Inside unit.lines (linesOf unit inner) (linesOf unit outer) := by
  obtain ⟨hstart, hstop⟩ := h
  simp only [Java.spanEnd] at hstop
  have hfirst : unit.lineOf (outer.span unit.code).1 ≤ unit.lineOf (inner.span unit.code).1 :=
    lineOf_mono unit.code (by omega)
  have hlast : unit.lineOf ((inner.span unit.code).1 + (inner.span unit.code).2 - 1) ≤
      unit.lineOf ((outer.span unit.code).1 + (outer.span unit.code).2 - 1) :=
    lineOf_mono unit.code (by omega)
  intro number _ hholds
  exact ⟨Int.le_trans (Int.ofNat_le.mpr hfirst) hholds.1,
    Int.le_trans hholds.2 (Int.ofNat_le.mpr hlast)⟩

theorem inside_of_nested (hplaced : unit.root.WellPlaced)
    (htype : type ∈ unit.enumerate.map (·.2)) (hinner : inner ∈ type.nested unit.code) :
    Inside unit.lines (linesOf unit inner) (linesOf unit type) := by
  obtain ⟨spot, hstands⟩ := unit.exists_standsAt htype
  exact inside_of_spanInside (spanInside_of_le (hstands.start_le_nested hplaced hinner))

theorem sum_typeLoc_le {types : List TypeDeclaration}
    (hapart : types.Pairwise fun a b => Apart (linesOf unit a) (linesOf unit b))
    (hcode : ∀ type ∈ types, ReachedInCode unit.lines 1 (linesOf unit type).1) :
    (types.map (typeLoc unit)).sum ≤ Loc.countText unit.text := by
  have hsum := @Loc.sum_countRange_le unit.lines (1, unit.lines.length) (types.map (linesOf unit))
  rw [List.map_map, List.forall_mem_map, List.forall_mem_map, List.pairwise_map] at hsum
  rw [List.map_congr_left fun type _ => typeLoc_eq_countRange unit type]
  refine hsum ?_ hapart hcode
  intro type _ number hle hholds
  have hone : 1 ≤ (unit.lineRange type).1 := CompilationUnit.one_le_lineOf _
  exact ⟨Int.le_trans (Int.ofNat_le.mpr hone) hholds.1, hle⟩

/-- How the lines of the types of a unit are counted within one another. -/
structure TypeLineAccount (unit : CompilationUnit) : Prop where
  enclosed : ∀ outer inner : TypeDeclaration,
    Inside unit.lines (linesOf unit inner) (linesOf unit outer) →
    ReachedInCode unit.lines (linesOf unit outer).1 (linesOf unit inner).1 →
      typeLoc unit inner ≤ typeLoc unit outer
  /-- If the tree is well placed, member types are enclosed by the type that declares them. -/
  nested : unit.root.WellPlaced → ∀ type ∈ unit.enumerate.map (·.2),
    ∀ inner ∈ type.nested unit.code,
      ReachedInCode unit.lines (linesOf unit type).1 (linesOf unit inner).1 →
        typeLoc unit inner ≤ typeLoc unit type
  topLevel : ∀ types ⊆ unit.types,
    (types.Pairwise fun a b => Apart (linesOf unit a) (linesOf unit b)) →
    (∀ type ∈ types, ReachedInCode unit.lines 1 (linesOf unit type).1) →
      (types.map (typeLoc unit)).sum ≤ Loc.countText unit.text

/-- Ranges without a common line count no more together than a range around them, if the scan of it
is outside of comments where they start. -/
theorem disjoint_ranges_count_within (lines : List String) (unit : CompilationUnit) :
    Loc.RangeAccount lines ∧ TypeLineAccount unit := by
  refine ⟨⟨?_, ?_⟩, ⟨?_, ?_, ?_⟩⟩
  · intro first last ranges hinside hapart hcode
    exact Loc.sum_countRange_le (first, last) hinside hapart hcode
  · intro first last later hle
    exact Loc.countRange_mono lines first hle
  · intro outer inner hinside hcode
    exact typeLoc_le hinside hcode
  · intro hplaced type htype inner hinner hcode
    exact typeLoc_le (inside_of_nested hplaced htype hinner) hcode
  · intro types _ hapart hcode
    exact sum_typeLoc_le hapart hcode

-- A scan that starts inside of a comment takes it for code.
example : Loc.countRange ["/*", "a", "*/"] 2 2 = 1 ∧ Loc.countRange ["/*", "a", "*/"] 1 3 = 0 := by
  decide

/-- A class with a documented member class, and another class. -/
def neighbouringTypes : CompilationUnit :=
  .ofTree "A.java" "class A\x7b\n/** b */\nclass B\x7b\n\x7d\n\x7d\nclass C\x7b\x7d"
    { kind := "program", start := 0, stop := 40, children := [
      { kind := "class_declaration", start := 0, stop := 30, children := [
        { kind := "identifier", field := some .name, start := 6, stop := 7 },
        { kind := "class_body", field := some .body, start := 7, stop := 30, children := [
          { kind := "block_comment", start := 9, stop := 17 },
          { kind := "class_declaration", start := 18, stop := 28, children := [
            { kind := "identifier", field := some .name, start := 24, stop := 25 },
            { kind := "class_body", field := some .body, start := 25, stop := 28 }] }] }] },
      { kind := "class_declaration", start := 31, stop := 40, children := [
        { kind := "identifier", field := some .name, start := 37, stop := 38 },
        { kind := "class_body", field := some .body, start := 38, stop := 40 }] }] }

theorem ranges_count_within_neighbouringTypes :
    neighbouringTypes.enumerate.map (fun listed => (listed.1, typeLoc neighbouringTypes listed.2)) =
        [("A", 4), ("A$B", 2), ("C", 1)] ∧
      (∀ type ∈ neighbouringTypes.enumerate.map (·.2),
        ∀ inner ∈ type.nested neighbouringTypes.code,
          typeLoc neighbouringTypes inner ≤ typeLoc neighbouringTypes type) ∧
      (neighbouringTypes.types.map (typeLoc neighbouringTypes)).sum ≤
        Loc.countText neighbouringTypes.text ∧
      ([(0, 1), (3, 5), (6, 9)].map fun range =>
        countRange neighbouringTypes.lines range.1 range.2).sum ≤
          countRange neighbouringTypes.lines (-1) 10 := by
  obtain ⟨hranges, htypes⟩ := disjoint_ranges_count_within neighbouringTypes.lines neighbouringTypes
  have hplaced : neighbouringTypes.root.WellPlaced := by decide +kernel
  have hreached : ∀ type ∈ neighbouringTypes.enumerate.map (·.2),
      ∀ inner ∈ type.nested neighbouringTypes.code,
        ReachedInCode neighbouringTypes.lines (linesOf neighbouringTypes type).1
          (linesOf neighbouringTypes inner).1 := by
    decide +kernel
  refine ⟨by decide +kernel, ?_, ?_, ?_⟩
  · intro type htype inner hinner
    exact htypes.nested hplaced type htype inner hinner (hreached type htype inner hinner)
  · apply htypes.topLevel
    · exact List.Subset.refl _
    · decide +kernel
    · decide +kernel
  · apply hranges.disjoint
    · decide +kernel
    · decide
    · decide +kernel

end JavaMetrics.Metrics
