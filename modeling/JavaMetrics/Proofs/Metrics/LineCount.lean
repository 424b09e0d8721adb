import JavaMetrics.Proofs.Metrics.Comments

/-!
# Counting lines agrees with reading comments

The scanner that counts lines of code never looks into a line: it tests how the
trimmed line begins, and what follows the first `*/` on it. The lexer of
`Comments` reads every character. On the lines that people write the two agree,
and this file says which those are.

Three things can lead the scanner astray, and each is one condition on a line and
the mode in which the lexer begins it. A block comment that stays open must be
the first thing on its line (`OpensFirst`), because the scanner does not look for
one behind code. A line must not begin like a comment that it is not
(`BeginsPlainly`): with a star outside of a comment, or with `/*/`, where the
scanner takes the star twice. And a comment that follows a closed one must be
the end of the code on the line (`ClosesOnce`), because the scanner stops there.

Under these conditions one line takes scanner and lexer from states that fit to
states that fit, and is counted exactly if it holds code (`stepTrimmed_eq`); the
rest is an induction over the lines.
-/

namespace JavaMetrics.Metrics

open Text (isControl)

/-! ## The scanner as a machine -/

namespace Loc

/-- Where the scanner is after some lines. -/
def stateAfter (state : State) (lines : List String) : State :=
  lines.foldl (fun state line => (step state line).1) state

theorem marks_cons (state : State) (line : String) (rest : List String) :
    marks state (line :: rest) = (step state line).2 :: marks (step state line).1 rest := rfl

theorem stateAfter_cons (state : State) (line : String) (rest : List String) :
    stateAfter state (line :: rest) = stateAfter (step state line).1 rest := rfl

theorem stateAfter_append (state : State) (first second : List String) :
    stateAfter state (first ++ second) = stateAfter (stateAfter state first) second :=
  List.foldl_append

theorem marks_append (state : State) (first second : List String) :
    marks state (first ++ second) = marks state first ++ marks (stateAfter state first) second := by
  induction first generalizing state with
  | nil => rfl
  | cons line rest ih =>
      rw [List.cons_append, marks_cons, marks_cons, ih, stateAfter_cons, List.cons_append]

theorem length_marks (state : State) (lines : List String) :
    (marks state lines).length = lines.length := by
  induction lines generalizing state with
  | nil => rfl
  | cons line rest ih => rw [marks_cons, List.length_cons, ih, List.length_cons]

theorem countRange_all (lines : List String) : countRange lines 1 lines.length = count lines := by
  rw [countRange, range]
  simp

end Loc

namespace Comments

/-! ## Lines that the scanner understands

The conditions are about a trimmed line and the mode in which the lexer begins
it. -/

/-- A block comment that opens on the line and stays open is the first thing on it. -/
def OpensFirst (mode : Mode) (line : List Char) : Prop :=
  ∀ i < (read mode line).length, (read mode line)[i]? = some ('/', .opener) →
    (∀ x ∈ (read mode line).drop i, x.2 ≠ .closer) → i = 0

/-- Outside of comments the line begins neither with a star nor with a comment that seems to close
itself. -/
def BeginsPlainly (mode : Mode) (line : List Char) : Prop :=
  mode = .code → ¬ ['*'] <+: line ∧ ¬ ['/', '*', '/'] <+: line

/-- If the line begins with or in a block comment, and another one follows its close, then no code
comes after the close. -/
def ClosesOnce (mode : Mode) (line : List Char) : Prop :=
  mode = .block ∨ ['/', '*'] <+: line → ∀ tail ∈ Loc.afterClose? line,
    ['/', '*'] <+: Loc.trim tail → ¬ HoldsCode (read .code tail)

instance (mode : Mode) (line : List Char) : Decidable (OpensFirst mode line) :=
  inferInstanceAs (Decidable (∀ i < (read mode line).length, _))

instance (mode : Mode) (line : List Char) : Decidable (BeginsPlainly mode line) :=
  inferInstanceAs (Decidable (mode = .code → _))

instance (mode : Mode) (line : List Char) : Decidable (ClosesOnce mode line) :=
  inferInstanceAs (Decidable (mode = .block ∨ ['/', '*'] <+: line → _))

/-- The state in which the scanner should be. -/
def Mode.state : Mode → Loc.State
  | .block => .block
  | _ => .code

theorem state_eq_block_iff {mode : Mode} : mode.state = .block ↔ mode = .block := by
  cases mode <;> decide

theorem state_nextLine (mode : Mode) : mode.nextLine.state = mode.state := by
  cases mode <;> rfl

theorem state_of_ne_block {mode : Mode} (h : mode ≠ .block) : mode.state = .code := by
  cases mode with
  | code => rfl
  | line => rfl
  | block => exact absurd rfl h

/-! ## One line -/

theorem comment_of_read_line {line : List Char} :
    after .line line = .line ∧ ∀ x ∈ read .line line, x.2 = .comment := by
  induction line with
  | nil => simp [read, after]
  | cons c rest ih =>
      rw [read, after]
      exact ⟨ih.1, List.forall_mem_cons.mpr ⟨rfl, ih.2⟩⟩

theorem not_holdsCode_line_comment (rest : List Char) :
    ¬ HoldsCode (read .code ('/' :: '/' :: rest)) := by
  apply not_holdsCode_of_comment
  intro x hx
  rw [read, List.mem_cons, List.mem_cons] at hx
  rcases hx with rfl | rfl | hx
  · simp
  · simp
  · rw [comment_of_read_line.2 x hx]
    simp

theorem holdsCode_opener (rest : List Char) :
    HoldsCode (read .code ('/' :: '*' :: rest)) ↔ HoldsCode (read .block rest) := by
  have hread : read .code ('/' :: '*' :: rest) =
      [('/', .opener), ('*', .opener)] ++ read .block rest := rfl
  have hopener : ¬ HoldsCode [('/', Reading.opener), ('*', .opener)] := by decide
  rw [hread, holdsCode_append]
  tauto

/-- A visible character that opens no comment is code. -/
theorem holdsCode_cons {c : Char} {rest : List Char} (hc : isControl c = false)
    (hline : ∀ tail, c = '/' → rest = '/' :: tail → False)
    (hblock : ∀ tail, c = '/' → rest = '*' :: tail → False) :
    HoldsCode (read .code (c :: rest)) := by
  refine ⟨(c, .code), ?_, rfl, ?_⟩
  · rw [(read_code_cons hline hblock).1]
    exact List.mem_cons_self
  · rw [isControl, decide_eq_false_iff_not] at hc
    exact Nat.lt_of_not_le hc

theorem opensComment_eq_true_iff {text : List Char} :
    Loc.opensComment text = true ↔ ['/', '/'] <+: text ∨ ['/', '*'] <+: text := by
  fun_cases Loc.opensComment text with
  | case1 rest => simp
  | case2 rest => simp
  | case3 text hline hblock =>
      simp only [Bool.false_eq_true, false_iff, not_or]
      exact ⟨fun ⟨rest, hrest⟩ => hline rest hrest.symm,
        fun ⟨rest, hrest⟩ => hblock rest hrest.symm⟩

theorem holdsCode_eq_true_iff {tail : List Char}
    (h : ['/', '*'] <+: Loc.trim tail → ¬ HoldsCode (read .code tail)) :
    Loc.holdsCode tail = true ↔ HoldsCode (read .code tail) := by
  rw [holdsCode_trim] at h ⊢
  have hvisible := @isControl_head?_trim tail
  simp only [Loc.holdsCode, Bool.and_eq_true, Bool.not_eq_true', List.isEmpty_eq_false_iff]
  generalize Loc.trim tail = text at h hvisible ⊢
  rw [← Bool.not_eq_true, opensComment_eq_true_iff, not_or]
  constructor
  · rintro ⟨hne, hline, hblock⟩
    cases text with
    | nil => exact absurd rfl hne
    | cons c rest =>
        apply holdsCode_cons (hvisible rfl)
        · rintro tail rfl rfl
          exact hline ⟨tail, rfl⟩
        · rintro tail rfl rfl
          exact hblock ⟨tail, rfl⟩
  · intro hcode
    refine ⟨?_, ?_, fun hblock => h hblock hcode⟩
    · rintro rfl
      simp [HoldsCode, read] at hcode
    · rintro ⟨rest, rfl⟩
      exact not_holdsCode_line_comment rest hcode

/-- On a line that opens comments first, the lexer is not in a block comment once it has read
something as code. -/
theorem OpensFirst.after_ne_block {mode : Mode} {line tail : List Char}
    (h : OpensFirst mode line) (front : List (Char × Reading))
    (hread : read mode line = front ++ read .code tail) (hfront : front ≠ []) :
    after .code tail ≠ .block := by
  intro hafter
  rcases leavesOpen_of_after hafter with ⟨hmode, -⟩ | ⟨before, rest, hopen, hrest⟩
  · cases hmode
  · rw [hopen, ← List.append_assoc] at hread
    have hzero : (front ++ before).length = 0 := by
      apply h
      · rw [hread]
        simp
      · rw [hread, List.getElem?_append_right (Nat.le_refl _)]
        simp
      · rw [hread, List.drop_left]
        exact List.forall_mem_cons.mpr ⟨by simp, hrest⟩
    simp [hfront] at hzero

/-- A line that is in a block comment from `body` on, which is what the scanner finds the close
in. -/
theorem closeBlock_eq {line body : List Char} (hclose : Loc.afterClose? line = Loc.afterClose? body)
    (hopen : ∀ tail, Loc.afterClose? body = some tail → after .code tail ≠ .block)
    (honce : ∀ tail, Loc.afterClose? body = some tail → ['/', '*'] <+: Loc.trim tail →
      ¬ HoldsCode (read .code tail)) :
    Loc.closeBlock line = ((after .block body).state, decide (HoldsCode (read .block body))) := by
  rw [Loc.closeBlock, hclose]
  cases hbody : Loc.afterClose? body with
  | none =>
      obtain ⟨hafter, hcomment⟩ := read_block_of_open hbody
      have hno : ¬ HoldsCode (read .block body) := by
        apply not_holdsCode_of_comment
        intro x hx
        rw [hcomment x hx]
        simp
      rw [hafter, decide_eq_false hno]
      rfl
  | some tail =>
      obtain ⟨-, hafter⟩ := read_block_of_close hbody
      have hholds : Loc.holdsCode tail = decide (HoldsCode (read .block body)) := by
        rw [Bool.eq_iff_iff, decide_eq_true_iff, holdsCode_block_of_close hbody]
        exact holdsCode_eq_true_iff (honce tail hbody)
      rw [hafter, state_of_ne_block (hopen tail hbody), ← hholds]

theorem afterClose?_opener {rest : List Char} (h : ¬ ['/'] <+: rest) :
    Loc.afterClose? ('/' :: '*' :: rest) = Loc.afterClose? rest := by
  rw [Loc.afterClose?, Loc.afterClose?]
  · rintro tail - rfl
    exact h ⟨tail, rfl⟩
  · rintro tail hslash
    cases hslash

/-- One trimmed line that begins in a block comment. -/
theorem stepTrimmed_block_eq {line : List Char} (hfirst : OpensFirst .block line)
    (honce : ClosesOnce .block line) :
    Loc.stepTrimmed .block line =
      ((after .block line).state, decide (HoldsCode (read .block line))) := by
  cases line with
  | nil => decide
  | cons c rest =>
      apply closeBlock_eq rfl
      · intro tail htail
        obtain ⟨⟨inside, hread, -⟩, -⟩ := read_block_of_close htail
        refine hfirst.after_ne_block (inside ++ [('*', .closer), ('/', .closer)]) ?_ (by simp)
        rw [hread, List.append_assoc]
        rfl
      · exact fun tail htail => honce (.inl rfl) tail htail

/-- One trimmed line that begins outside of comments. -/
theorem stepTrimmed_code_eq {line : List Char}
    (hvisible : ∀ c rest, line = c :: rest → isControl c = false)
    (hfirst : OpensFirst .code line) (hplain : BeginsPlainly .code line)
    (honce : ClosesOnce .code line) :
    Loc.stepTrimmed .code line =
      ((after .code line).state, decide (HoldsCode (read .code line))) := by
  generalize hstate : Loc.State.code = state
  fun_cases Loc.stepTrimmed state line with
  | case1 state =>
      rw [← hstate]
      decide
  | case2 => cases hstate
  | case3 rest =>
      -- not `/*/`, so the close that the scanner finds is the close of this comment
      have hslash : ¬ ['/'] <+: rest := by
        rintro ⟨tail, rfl⟩
        exact (hplain rfl).2 ⟨tail, rfl⟩
      have hclose := afterClose?_opener hslash
      rw [after, decide_eq_decide.mpr (holdsCode_opener rest)]
      apply closeBlock_eq hclose
      · intro tail htail
        obtain ⟨⟨inside, hread, -⟩, -⟩ := read_block_of_close htail
        refine hfirst.after_ne_block
          (('/', .opener) :: ('*', .opener) :: inside ++ [('*', .closer), ('/', .closer)]) ?_
          (by simp)
        rw [read, hread, List.append_assoc]
        rfl
      · rw [← hclose]
        exact fun tail htail => honce (.inr ⟨rest, rfl⟩) tail htail
  | case4 rest =>
      rw [after, comment_of_read_line.1, decide_eq_false (not_holdsCode_line_comment rest)]
      rfl
  | case5 rest => exact absurd ⟨rest, rfl⟩ (hplain rfl).1
  | case6 line hne hblock hline hstar =>
      cases line with
      | nil => exact absurd rfl hne
      | cons c rest =>
          have hnoline : ∀ tail, c = '/' → rest = '/' :: tail → False := by
            rintro tail rfl rfl
            exact hline tail rfl
          have hnoblock : ∀ tail, c = '/' → rest = '*' :: tail → False := by
            rintro tail rfl rfl
            exact hblock tail rfl
          obtain ⟨hread, hafter⟩ := read_code_cons hnoline hnoblock
          have hopen : after .code rest ≠ .block :=
            hfirst.after_ne_block [(c, .code)] hread (by simp)
          rw [decide_eq_true (holdsCode_cons (hvisible c rest rfl) hnoline hnoblock), hafter,
            state_of_ne_block hopen]

/-! ## All lines -/

/-- Does the scanner understand a line that the lexer begins in a mode? -/
def Scannable (mode : Mode) (line : String) : Prop :=
  OpensFirst mode (Loc.trim line.toList) ∧ BeginsPlainly mode (Loc.trim line.toList) ∧
    ClosesOnce mode (Loc.trim line.toList)

theorem nextLine_ne_line (mode : Mode) : mode.nextLine ≠ .line := by
  cases mode <;> decide

theorem step_eq {mode : Mode} {line : String} (hmode : mode ≠ .line) (h : Scannable mode line) :
    Loc.step mode.state line =
      ((advance mode line).state, decide (HoldsCode (read mode line.toList))) := by
  obtain ⟨hfirst, hplain, honce⟩ := h
  rw [Loc.step, advance, state_nextLine, after_trim, decide_eq_decide.mpr (holdsCode_trim _ _)]
  cases mode with
  | code => exact stepTrimmed_code_eq (fun c rest => isControl_head?_trim) hfirst hplain honce
  | line => exact absurd rfl hmode
  | block => exact stepTrimmed_block_eq hfirst honce

theorem run_eq (mode : Mode) {lines : List String} (hmode : mode ≠ .line)
    (h : ∀ i (hi : i < lines.length), Scannable (modeAfter mode (lines.take i)) lines[i]) :
    Loc.stateAfter mode.state lines = (modeAfter mode lines).state ∧
      Loc.marks mode.state lines =
        (readLines mode lines).map fun line => decide (HoldsCode line.readings) := by
  induction lines generalizing mode with
  | nil => exact ⟨rfl, rfl⟩
  | cons line rest ih =>
      have hline : Loc.step mode.state line = _ := step_eq hmode (h 0 (by simp))
      have hrest := ih (advance mode line) (nextLine_ne_line (after mode line.toList)) fun i hi =>
        h (i + 1) (by simpa using hi)
      rw [Loc.stateAfter_cons, Loc.marks_cons, modeAfter_cons, readLines, List.map_cons, hline]
      exact ⟨hrest.1, congrArg _ hrest.2⟩

/-- The scanner agrees with the lexer on some lines. -/
structure ScanAgrees (lines : List String) : Prop where
  /-- After every line the scanner is in a block comment exactly if the lexer is. -/
  state : ∀ i ≤ lines.length, Loc.stateAfter .code (lines.take i) = .block ↔
    modeAfter .code (lines.take i) = .block
  /-- The lines that count are as many as those that hold code. -/
  count : Loc.countRange lines 1 lines.length =
    (readLines .code lines).countP fun line => decide (HoldsCode line.readings)
  /-- The lexer reads the lines as it reads the text that is made of them. -/
  joined : lines ≠ [] → (∀ line ∈ lines, '\n' ∉ line.toList) →
    readText .code (['\n'].intercalate (lines.map String.toList)) = readLines .code lines

/-- The scanner agrees with the lexer on lines on which block comments that stay open come first,
which begin plainly, and which close one comment at most before code. -/
theorem scan_agrees_with_reading (lines : List String)
    (hfirst : ∀ i (hi : i < lines.length),
      OpensFirst (modeAfter .code (lines.take i)) (Loc.trim lines[i].toList))
    (hplain : ∀ i (hi : i < lines.length),
      BeginsPlainly (modeAfter .code (lines.take i)) (Loc.trim lines[i].toList))
    (honce : ∀ i (hi : i < lines.length),
      ClosesOnce (modeAfter .code (lines.take i)) (Loc.trim lines[i].toList)) :
    ScanAgrees lines where
  state i hi := by
    have hstarts : ∀ j (hj : j < (lines.take i).length),
        Scannable (modeAfter .code ((lines.take i).take j)) (lines.take i)[j] := by
      intro j hj
      rw [List.length_take] at hj
      rw [List.take_take, Nat.min_eq_left (by omega), List.getElem_take]
      exact ⟨hfirst j (by omega), hplain j (by omega), honce j (by omega)⟩
    have hstate := (run_eq .code (by decide) hstarts).1
    rw [← state_eq_block_iff, ← hstate]
    rfl
  count := by
    have hmarks := (run_eq .code (by decide)
      fun i hi => ⟨hfirst i hi, hplain i hi, honce i hi⟩).2
    rw [Loc.countRange_all, Loc.count]
    change Loc.marks .code lines = _ at hmarks
    rw [hmarks, List.count, List.countP_map]
    congr 1
    funext line
    simp
  joined hne hbreak := readText_join .code hne hbreak

def mixedLines : List String :=
  ["/** The sum", " * of both */ int sum; // so far", "", "int b; /* other */",
    "/* add */ sum += b; // done"]

theorem scan_agrees_on_mixed_lines :
    Loc.countRange mixedLines 1 5 = 3 ∧ ScanAgrees mixedLines := by
  refine ⟨by decide, scan_agrees_with_reading _ ?_ ?_ ?_⟩
  · decide
  · decide
  · decide

end Comments

end JavaMetrics.Metrics
