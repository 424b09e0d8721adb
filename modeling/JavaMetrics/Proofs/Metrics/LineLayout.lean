import JavaMetrics.Proofs.Java.SourceLines
import JavaMetrics.Proofs.Metrics.LineDeletion
import JavaMetrics.Proofs.Text.Pieces

/-!
# The layout of a text does not count

A text can be laid out anew without touching what its lines say: by padding at the
ends of lines, which is indentation, blanks behind a line, or the carriage return
of another convention for line ends, and by lines that hold nothing but padding.
None of it changes what counts.

The two kinds of change are of different nature. Padding at the ends of a line is
trimmed off before the scanner looks at the line, so a line that is padded
differently is the same line to it (`SameText.trim_eq`). A line of padding is
trimmed to nothing and leaves the scanner where it is, inside a block comment or
outside of one; so such lines are never the first or the closing line of a comment,
and may be left out (`sparesRegions_of_blank`).
-/

namespace JavaMetrics.Metrics.Loc

open Text (isControl)

/-! ## Padding -/

/-- A control character or blank that does not end a line. -/
def isPadding (c : Char) : Bool :=
  isControl c && c != '\n'

/-- Two lines that differ only in the padding at their ends. -/
def SameText (line relaid : List Char) : Prop :=
  ∃ core lead trail lead' trail', line = lead ++ (core ++ trail) ∧
    relaid = lead' ++ (core ++ trail') ∧
    ∀ c ∈ lead ++ trail ++ (lead' ++ trail'), isPadding c = true

theorem isControl_of_isPadding {c : Char} (h : isPadding c = true) : isControl c = true :=
  (Bool.and_eq_true_iff.mp h).1

theorem trim_padded {lead trail : List Char} (core : List Char)
    (hlead : ∀ c ∈ lead, isPadding c = true) (htrail : ∀ c ∈ trail, isPadding c = true) :
    trim (lead ++ (core ++ trail)) = trim core := by
  rw [trim, Text.trimBoth_append_left fun c hc => isControl_of_isPadding (hlead c hc),
    Text.trimBoth_append_right fun c hc => isControl_of_isPadding (htrail c hc)]
  rfl

theorem SameText.trim_eq {line relaid : List Char} (h : SameText line relaid) :
    trim line = trim relaid := by
  obtain ⟨core, lead, trail, lead', trail', rfl, rfl, hpadding⟩ := h
  simp only [List.forall_mem_append] at hpadding
  obtain ⟨⟨hlead, htrail⟩, hlead', htrail'⟩ := hpadding
  rw [trim_padded core hlead htrail, trim_padded core hlead' htrail']

theorem trim_of_isPadding {line : List Char} (h : ∀ c ∈ line, isPadding c = true) :
    trim line = [] := by
  have hnil : ∀ c ∈ ([] : List Char), isPadding c = true := by simp
  have hpadded := trim_padded [] h hnil
  rw [List.append_nil, List.append_nil] at hpadded
  exact hpadded

/-! ## Lines laid out anew -/

/-- Lines that are others with padding added or taken away at their ends, and with lines of padding
inserted at some positions. -/
structure Relaid (lines edited : List String) (inserted : Finset Nat) : Prop where
  blank : ∀ i ∈ inserted, ∃ line, edited[i]? = some line ∧ ∀ c ∈ line.toList, isPadding c = true
  others : List.Forall₂ (fun line relaid => SameText line.toList relaid.toList) lines
    (without inserted edited)

theorem marks_eq_of_sameText {lines relaid : List String} (state : State)
    (h : List.Forall₂ (fun line relaid => SameText line.toList relaid.toList) lines relaid) :
    marks state lines = marks state relaid := by
  induction h generalizing state with
  | nil => rfl
  | cons hline hrest ih =>
      rw [marks_cons, marks_cons, step, step, hline.trim_eq, ih]

variable {edited : List String} {inserted : Finset Nat} {i : Nat}

theorem step_of_blank (state : State) {line : String} (h : trim line.toList = []) :
    step state line = (state, false) := by
  rw [step, h, stepTrimmed]

theorem getElem?_marks (h : i < edited.length) :
    (marks .code edited)[i]? = some (step (stateAt edited i) edited[i]).2 := by
  have hlength : (marks .code (edited.take i)).length = i := by
    rw [length_marks, List.length_take_of_le (Nat.le_of_lt h)]
  have hsplit : edited = edited.take i ++ edited[i] :: edited.drop (i + 1) := by simp
  conv => lhs; rw [hsplit]
  rw [marks_append, marks_cons, List.getElem?_append_right (by omega), hlength, Nat.sub_self]
  rfl

theorem uncounted_of_blank
    (hblank : ∀ i ∈ inserted, ∃ line, edited[i]? = some line ∧ trim line.toList = []) :
    ∀ i ∈ inserted, (marks .code edited)[i]? = some false := by
  intro i hi
  obtain ⟨line, hline, htrim⟩ := hblank i hi
  obtain ⟨hlt, rfl⟩ := List.getElem?_eq_some_iff.mp hline
  rw [getElem?_marks hlt, step_of_blank _ htrim]

theorem stateAt_succ_of_blank
    (hblank : ∀ i ∈ inserted, ∃ line, edited[i]? = some line ∧ trim line.toList = [])
    (hi : i ∈ inserted) : stateAt edited (i + 1) = stateAt edited i := by
  obtain ⟨line, hline, htrim⟩ := hblank i hi
  obtain ⟨hlt, rfl⟩ := List.getElem?_eq_some_iff.mp hline
  rw [stateAt_succ hlt, step_of_blank _ htrim]

/-- A blank line neither opens a block comment nor closes one. -/
theorem sparesRegions_of_blank
    (hblank : ∀ i ∈ inserted, ∃ line, edited[i]? = some line ∧ trim line.toList = []) :
    SparesRegions edited inserted := by
  intro first _ last _ hregion
  right
  constructor
  · intro hfirst
    have hstate := stateAt_succ_of_blank hblank hfirst
    rw [hregion.enters.1, hregion.enters.2] at hstate
    cases hstate
  · intro hcloses hlast
    have hstate := stateAt_succ_of_blank hblank hlast
    rw [hcloses] at hstate
    rcases Nat.lt_or_eq_of_le hregion.range.1 with hlt | rfl
    · rw [hregion.stays last (Nat.le_refl last) hlt] at hstate
      cases hstate
    · rw [hregion.enters.2] at hcloses
      cases hcloses

/-! ## Texts laid out anew -/

/-- The text of some lines. -/
def joinLines (lines : List String) : String :=
  String.ofList (['\n'].intercalate (lines.map String.toList))

theorem lines_joinLines {lines : List String} (hne : lines ≠ [])
    (h : ∀ line ∈ lines, '\n' ∉ line.toList) : Text.lines (joinLines lines) = lines := by
  have hpieces : ∀ piece ∈ lines.map String.toList, '\n' ∉ piece := by
    simpa using h
  rw [Text.lines, joinLines, String.toList_ofList,
    Text.splitAt_intercalate (by simpa using hne) hpieces]
  simp

theorem SameText.lineBreak_not_mem {line relaid : List Char} (h : SameText line relaid)
    (hline : '\n' ∉ line) : '\n' ∉ relaid := by
  obtain ⟨core, lead, trail, lead', trail', rfl, rfl, hpadding⟩ := h
  have hno : '\n' ∉ lead ++ trail ++ (lead' ++ trail') := by
    intro hmem
    exact absurd (hpadding _ hmem) (by decide)
  simp only [List.mem_append, not_or] at hno hline ⊢
  exact ⟨hno.2.1, hline.2.1, hno.2.2⟩

theorem mem_without_or {α : Type} (removed : Finset Nat) {items : List α} {item : α}
    (h : item ∈ items) : item ∈ without removed items ∨ ∃ i ∈ removed, items[i]? = some item := by
  obtain ⟨i, hi⟩ := List.getElem?_of_mem h
  by_cases hremoved : i ∈ removed
  · exact .inr ⟨i, hremoved, hi⟩
  · refine .inl (List.mem_map.mpr ⟨(item, i), List.mem_filter.mpr ⟨?_, by simpa⟩, rfl⟩)
    exact List.mk_mem_zipIdx_iff_getElem?.mpr hi

theorem without_empty {α : Type} (items : List α) : without ∅ items = items := by
  simp [without]

section

variable {lines : List String} (h : Relaid lines edited inserted)

include h

theorem Relaid.trim_blank :
    ∀ i ∈ inserted, ∃ line, edited[i]? = some line ∧ trim line.toList = [] := by
  intro i hi
  obtain ⟨line, hline, hpadding⟩ := h.blank i hi
  exact ⟨line, hline, trim_of_isPadding hpadding⟩

theorem Relaid.kept : without inserted (marks .code edited) = marks .code lines := by
  rw [← marks_without (sparesRegions_of_blank h.trim_blank), marks_eq_of_sameText .code h.others]

theorem Relaid.count_eq : count edited = count lines := by
  rw [← count_lines_without (uncounted_of_blank h.trim_blank)
      (sparesRegions_of_blank h.trim_blank), count, count, marks_eq_of_sameText .code h.others]

theorem Relaid.lineBreak_not_mem (hlines : ∀ line ∈ lines, '\n' ∉ line.toList) :
    ∀ line ∈ edited, '\n' ∉ line.toList := by
  have hothers : ∀ line ∈ without inserted edited, '\n' ∉ line.toList := by
    have hrelaid := h.others
    generalize without inserted edited = relaid at hrelaid
    clear h
    induction hrelaid with
    | nil => simp
    | cons hline hrest ih =>
        rw [List.forall_mem_cons] at hlines ⊢
        exact ⟨hline.lineBreak_not_mem hlines.1, ih hlines.2⟩
  intro line hmem
  rcases mem_without_or inserted hmem with hother | ⟨i, hi, hline⟩
  · exact hothers line hother
  · obtain ⟨blank, hblank, hpadding⟩ := h.blank i hi
    obtain rfl := Option.some.inj (hline.symm.trans hblank)
    intro hbreak
    exact absurd (hpadding _ hbreak) (by decide)

theorem Relaid.ne_nil (hlines : lines ≠ []) : edited ≠ [] := by
  intro hnil
  have hothers := h.others
  rw [hnil] at hothers
  cases hothers
  exact hlines rfl

end

theorem lines_ne_nil (text : String) : Text.lines text ≠ [] := by
  simp [Text.lines, Text.splitAt, Text.splitFrom_ne_nil]

theorem lineBreak_not_mem_lines (text : String) : ∀ line ∈ Text.lines text, '\n' ∉ line.toList := by
  intro line hline
  obtain ⟨cs, hcs, rfl⟩ := List.mem_map.mp hline
  rw [String.toList_ofList]
  exact Text.not_mem_splitFrom (by simp) cs hcs

/-- The lines of a text are still lines when they are laid out anew. -/
theorem Relaid.lines_joinLines {text : String} (h : Relaid (Text.lines text) edited inserted) :
    Text.lines (joinLines edited) = edited :=
  Loc.lines_joinLines (h.ne_nil (lines_ne_nil text))
    (h.lineBreak_not_mem (lineBreak_not_mem_lines text))

theorem countText_eq (text : String) : countText text = count (Text.lines text) :=
  countRange_all (Text.lines text)

/-! ## Line ends -/

/-- Some characters with a carriage return before every line break. -/
def withReturns (cs : List Char) : List Char :=
  cs.flatMap fun c => if c = '\n' then ['\r', '\n'] else [c]

theorem sameText_withReturns (piece cs : List Char) :
    List.Forall₂ SameText (Text.splitFrom '\n' piece cs)
      (Text.splitFrom '\n' piece (withReturns cs)) := by
  induction cs generalizing piece with
  | nil => exact .cons ⟨piece.reverse, [], [], [], [], by simp, by simp, by simp⟩ .nil
  | cons c cs ih =>
      by_cases hc : c = '\n'
      · subst hc
        have hreturn : withReturns ('\n' :: cs) = '\r' :: '\n' :: withReturns cs := by
          simp [withReturns]
        rw [hreturn, Text.splitFrom, Text.splitFrom, Text.splitFrom]
        have hpadding : ∀ c ∈ ['\r'], isPadding c = true := List.all_eq_true.mp (by decide)
        exact .cons ⟨piece.reverse, [], [], [], ['\r'], by simp, by simp, hpadding⟩ (ih [])
      · have hplain : withReturns (c :: cs) = c :: withReturns cs := by
          simp [withReturns, hc]
        rw [hplain, Text.splitFrom, Text.splitFrom, if_neg (by simpa using hc),
          if_neg (by simpa using hc)]
        exact ih (c :: piece)

theorem relaid_withReturns (text : String) :
    Relaid (Text.lines text) (Text.lines (String.ofList (withReturns text.toList))) ∅ where
  blank := by simp
  others := by
    have hlines := sameText_withReturns [] text.toList
    rw [without_empty]
    simpa [Text.lines, Text.splitAt] using hlines

/-! ## The count of a text -/

/-- What becomes of the lines of a text in another layout. -/
structure EditAccount (text : String) (edited : List String) (inserted : Finset Nat) : Prop where
  lines : Text.lines (joinLines edited) = edited
  /-- The lines of the text count as they did, in their order. -/
  kept : without inserted (marks .code edited) = marks .code (Text.lines text)
  /-- The inserted ones do not. -/
  uncounted : ∀ i ∈ inserted, (marks .code edited)[i]? = some false
  count : countText (joinLines edited) = countText text

/-- What the layout of a text is to its count. -/
structure LayoutAccount (text : String) : Prop where
  edited : ∀ edited inserted, Relaid (Text.lines text) edited inserted →
    EditAccount text edited inserted
  lineEnds : countText (String.ofList (withReturns text.toList)) = countText text

/-- Padding at the ends of lines and lines of nothing but padding do not change what counts. -/
theorem layout_does_not_count (text : String) : LayoutAccount text where
  edited edited inserted h :=
    { lines := h.lines_joinLines
      kept := h.kept
      uncounted := uncounted_of_blank h.trim_blank
      count := by rw [countText_eq, countText_eq, h.lines_joinLines, h.count_eq] }
  lineEnds := by
    rw [countText_eq, countText_eq]
    exact (relaid_withReturns text).count_eq

def plainText : String := "/* a\n\tb */ int c;\nint d;"

/-- The lines of `plainText`, indented otherwise, with other line ends, and with a line inserted inside
of the comment and one behind it. -/
def relaidLines : List String := ["  /* a\r", " \t", "b */ int c;\r", "", "int d; "]

theorem relaid_plainText : Relaid (Text.lines plainText) relaidLines {1, 3} where
  blank := by
    intro i hi
    rw [Finset.mem_insert, Finset.mem_singleton] at hi
    rcases hi with rfl | rfl
    · exact ⟨" \t", rfl, List.all_eq_true.mp (by decide)⟩
    · exact ⟨"", rfl, List.all_eq_true.mp (by decide)⟩
  others := by
    have hlines : Text.lines plainText = ["/* a", "\tb */ int c;", "int d;"] := by decide
    have hkept : without {1, 3} relaidLines = ["  /* a\r", "b */ int c;\r", "int d; "] := by decide
    rw [hlines, hkept]
    refine .cons ?_ (.cons ?_ (.cons ?_ .nil))
    · exact ⟨"/* a".toList, [], [], [' ', ' '], ['\r'], rfl, rfl, List.all_eq_true.mp (by decide)⟩
    · exact ⟨"b */ int c;".toList, ['\t'], [], [], ['\r'], rfl, rfl,
        List.all_eq_true.mp (by decide)⟩
    · exact ⟨"int d;".toList, [], [], [], [' '], rfl, rfl, List.all_eq_true.mp (by decide)⟩

theorem layout_of_plainText :
    marks .code relaidLines = [false, false, true, false, true] ∧
      countText (joinLines relaidLines) = countText plainText :=
  ⟨by decide, ((layout_does_not_count plainText).edited _ _ relaid_plainText).count⟩

end JavaMetrics.Metrics.Loc
