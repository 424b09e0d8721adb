import JavaMetrics.Proofs.Metrics.LineCount

/-!
# Lines inside an open comment

A line that begins inside a block comment and holds no code ought not to count.
Whether it does depends on whether the scanner has noticed the comment, and it
notices one only where a trimmed line begins with `/*` and has no `*/` on it. A
comment that opens behind code, behind the close of another one, or as `/*/`,
goes unnoticed on the line that opens it, and its lines are then taken for code
until one of them begins with `/*` by itself.

`uncounted_in_open_comment_iff` is the exact account: the line is not counted if
and only if one of the lines of the comment before it begins with `/*` and has no
`*/`, or the line itself is blank or begins as comments do.

The argument follows the scanner alone on the lines of the comment. It rests on
one fact about both: the scanner is never in a block comment that the lexer is
not in (`block_of_stateAfter`), so at the line that opens the comment it is either
outside, or in another comment that is closed there.
-/

namespace JavaMetrics.Metrics.Comments

open Text (isControl)

/-! ## What a line does to the scanner -/

theorem closeBlock_fst_eq_block_iff {line : List Char} :
    (Loc.closeBlock line).1 = .block ↔ Loc.afterClose? line = none := by
  rw [Loc.closeBlock]
  cases Loc.afterClose? line <;> simp

theorem stepTrimmed_fst_eq_block_iff {state : Loc.State} {line : List Char} :
    (Loc.stepTrimmed state line).1 = .block ↔
      Loc.afterClose? line = none ∧ (state = .block ∨ ['/', '*'] <+: line) := by
  fun_cases Loc.stepTrimmed state line with
  | case1 state => simp [Loc.afterClose?]
  | case2 line hne => simp [closeBlock_fst_eq_block_iff]
  | case3 rest => simp [closeBlock_fst_eq_block_iff]
  | case4 rest => simp
  | case5 rest => simp
  | case6 line hne hblock hline hstar =>
      have hstarts : ¬ ['/', '*'] <+: line := by
        rintro ⟨rest, hrest⟩
        exact hblock rest hrest.symm
      simp [hstarts]

theorem closeBlock_snd_eq_false {line : List Char} (h : ¬ HoldsCode (read .block line)) :
    (Loc.closeBlock line).2 = false := by
  rw [Loc.closeBlock]
  cases hclose : Loc.afterClose? line with
  | none => rfl
  | some tail =>
      rw [holdsCode_block_of_close hclose] at h
      have hiff : Loc.holdsCode tail = true ↔ _ := holdsCode_eq_true_iff fun _ => h
      simpa [h] using hiff

/-- Does the trimmed line look as if it were only a comment, or blank? -/
def LooksUncoded (line : List Char) : Prop :=
  line = [] ∨ ['*'] <+: line ∨ ['/', '/'] <+: line ∨ ['/', '*'] <+: line

theorem stepTrimmed_snd_eq_false_iff {state : Loc.State} {line : List Char}
    (h : ¬ HoldsCode (read .block line)) :
    (Loc.stepTrimmed state line).2 = false ↔ state = .block ∨ LooksUncoded line := by
  fun_cases Loc.stepTrimmed state line with
  | case1 state => simp [LooksUncoded]
  | case2 line hne => simp [closeBlock_snd_eq_false h]
  | case3 rest => simp [closeBlock_snd_eq_false h, LooksUncoded]
  | case4 rest => simp [LooksUncoded]
  | case5 rest => simp [LooksUncoded]
  | case6 line hne hblock hline hstar =>
      have hlooks : ¬ LooksUncoded line := by
        rintro (hnil | ⟨rest, hrest⟩ | ⟨rest, hrest⟩ | ⟨rest, hrest⟩)
        · exact hne hnil
        · exact hstar rest hrest.symm
        · exact hline rest hrest.symm
        · exact hblock rest hrest.symm
      simp [hlooks]

/-! ## The scanner is never alone in a block comment -/

theorem afterClose?_of_opener_eq_none {rest : List Char}
    (h : Loc.afterClose? ('/' :: '*' :: rest) = none) : Loc.afterClose? rest = none := by
  by_cases hslash : ['/'] <+: rest
  · obtain ⟨tail, rfl⟩ := hslash
    simp [Loc.afterClose?] at h
  · rwa [afterClose?_opener hslash] at h

theorem advance_eq_block {mode : Mode} {state : Loc.State} {line : String} (hmode : mode ≠ .line)
    (h : state = .block → mode = .block) (hnext : (Loc.step state line).1 = .block) :
    advance mode line = .block := by
  obtain ⟨hclose, hbegins⟩ := stepTrimmed_fst_eq_block_iff.mp hnext
  rw [advance, nextLine_eq_block_iff, after_trim]
  cases mode with
  | code =>
      rcases hbegins with hstate | ⟨rest, hrest⟩
      · cases h hstate
      · rw [← hrest] at hclose ⊢
        exact (read_block_of_open (afterClose?_of_opener_eq_none hclose)).1
  | line => exact absurd rfl hmode
  | block => exact (read_block_of_open hclose).1

theorem block_of_stateAfter_from {mode : Mode} {state : Loc.State} {lines : List String}
    (hmode : mode ≠ .line) (h : state = .block → mode = .block)
    (hafter : Loc.stateAfter state lines = .block) : modeAfter mode lines = .block := by
  induction lines generalizing mode state with
  | nil => exact h hafter
  | cons line rest ih => exact ih (nextLine_ne_line _) (advance_eq_block hmode h) hafter

theorem block_of_stateAfter {lines : List String} (h : Loc.stateAfter .code lines = .block) :
    modeAfter .code lines = .block :=
  block_of_stateAfter_from (by decide) (by simp) h

/-! ## The lines of an open comment -/

/-- Does the trimmed line begin with a block comment that is not closed on it? -/
def BeginsComment (line : String) : Prop :=
  ['/', '*'] <+: Loc.trim line.toList ∧ Loc.afterClose? (Loc.trim line.toList) = none

/-- A block comment that opens on one line, after some earlier ones, and goes on over others. -/
structure OpenOver (earlier : List String) (opening : String) (inside : List String) : Prop where
  opens : LeavesOpen (read (modeAfter .code earlier) (Loc.trim opening.toList))
  goesOn : ∀ line ∈ inside, Loc.afterClose? (Loc.trim line.toList) = none

theorem afterClose?_eq_none {line : List Char} (h : ∀ x ∈ read .block line, x.2 ≠ .closer) :
    Loc.afterClose? line = none := by
  cases hclose : Loc.afterClose? line with
  | none => rfl
  | some tail =>
      obtain ⟨⟨inside, hread, -⟩, -⟩ := read_block_of_close hclose
      exact absurd rfl (h ('*', .closer) (by simp [hread]))

theorem exists_openOver {lines : List String} (h : modeAfter .code lines = .block) :
    ∃ earlier opening inside,
      lines = earlier ++ opening :: inside ∧ OpenOver earlier opening inside := by
  induction lines using List.reverseRecOn with
  | nil => cases h
  | append_singleton lines line ih =>
      rw [modeAfter_append, modeAfter_cons, modeAfter, List.foldl_nil, advance,
        nextLine_eq_block_iff, after_trim] at h
      rcases leavesOpen_of_after h with ⟨hmode, hclosers⟩ | hopen
      · -- the comment was open before the line, and goes on over it
        rw [hmode] at hclosers
        obtain ⟨earlier, opening, inside, rfl, hover⟩ := ih hmode
        refine ⟨earlier, opening, inside ++ [line], by simp, hover.opens, ?_⟩
        intro l hl
        rcases List.mem_append.mp hl with hl | hl
        · exact hover.goesOn l hl
        · obtain rfl := List.mem_singleton.mp hl
          exact afterClose?_eq_none hclosers
      · exact ⟨lines, line, [], rfl, hopen, by simp⟩

theorem not_leavesOpen_of_open {line : List Char} (h : Loc.afterClose? line = none) :
    ¬ LeavesOpen (read .block line) := by
  rintro ⟨before, rest, hread, -⟩
  have hcomment := (read_block_of_open h).2 ('/', .opener) (by simp [hread])
  cases hcomment

/-- On the line that opens the comment the scanner notices it only if the line begins with it. -/
theorem step_opening {earlier : List String} {opening : String}
    (h : LeavesOpen (read (modeAfter .code earlier) (Loc.trim opening.toList))) :
    (Loc.step (Loc.stateAfter .code earlier) opening).1 = .block ↔ BeginsComment opening := by
  rw [Loc.step, stepTrimmed_fst_eq_block_iff, BeginsComment]
  constructor
  · rintro ⟨hclose, hstate | hbegins⟩
    · rw [block_of_stateAfter hstate] at h
      exact absurd h (not_leavesOpen_of_open hclose)
    · exact ⟨hbegins, hclose⟩
  · rintro ⟨hbegins, hclose⟩
    exact ⟨hclose, .inr hbegins⟩

theorem stateAfter_inside {state : Loc.State} {inside : List String}
    (h : ∀ line ∈ inside, Loc.afterClose? (Loc.trim line.toList) = none) :
    Loc.stateAfter state inside = .block ↔
      state = .block ∨ ∃ line ∈ inside, BeginsComment line := by
  induction inside generalizing state with
  | nil => simp [Loc.stateAfter]
  | cons line rest ih =>
      have hline := h line List.mem_cons_self
      rw [Loc.stateAfter_cons, ih fun l hl => h l (List.mem_cons_of_mem _ hl), Loc.step,
        stepTrimmed_fst_eq_block_iff, List.exists_mem_cons_iff, BeginsComment]
      tauto

/-- The scanner is in the comment if one of its lines so far begins as a comment. -/
theorem stateAfter_openOver {earlier inside : List String} {opening : String}
    (h : OpenOver earlier opening inside) :
    Loc.stateAfter .code (earlier ++ opening :: inside) = .block ↔
      ∃ line ∈ opening :: inside, BeginsComment line := by
  have happend : Loc.stateAfter .code (earlier ++ opening :: inside) =
      Loc.stateAfter (Loc.step (Loc.stateAfter .code earlier) opening).1 inside := by
    rw [Loc.stateAfter, List.foldl_append]
    rfl
  rw [happend, stateAfter_inside h.goesOn, step_opening h.opens, List.exists_mem_cons_iff]

/-! ## Which lines of a comment are not counted -/

theorem mark_eq (before : List String) (line : String) (later : List String) :
    (Loc.marks .code (before ++ line :: later))[before.length]? =
      some (Loc.step (Loc.stateAfter .code before) line).2 := by
  rw [Loc.marks_append, Loc.marks_cons, ← Loc.length_marks .code before,
    List.getElem?_append_right (Nat.le_refl _)]
  simp

/-- A line that begins inside a block comment and holds no code is not counted if and only if the
scanner has noticed the comment, or the line looks like one. -/
theorem uncounted_in_open_comment_iff (before : List String) (line : String) (later : List String)
    (hblock : modeAfter .code before = .block) (hcode : ¬ HoldsCode (read .block line.toList)) :
    ∃ earlier opening inside,
      before = earlier ++ opening :: inside ∧ OpenOver earlier opening inside ∧
        ((Loc.marks .code (before ++ line :: later))[before.length]? = some false ↔
          (∃ l ∈ opening :: inside, BeginsComment l) ∨ LooksUncoded (Loc.trim line.toList)) := by
  obtain ⟨earlier, opening, inside, rfl, hover⟩ := exists_openOver hblock
  refine ⟨earlier, opening, inside, rfl, hover, ?_⟩
  rw [holdsCode_trim] at hcode
  rw [mark_eq, Option.some.injEq, Loc.step, stepTrimmed_snd_eq_false_iff hcode,
    stateAfter_openOver hover]

theorem uncounted_in_comment_at_start :
    modeAfter .code ["/* start"] = .block ∧ ¬ HoldsCode (read .block "still comment".toList) ∧
      ∃ earlier opening inside,
        ["/* start"] = earlier ++ opening :: inside ∧ OpenOver earlier opening inside ∧
          ((Loc.marks .code (["/* start"] ++ "still comment" :: ["*/"]))[1]? = some false ↔
            (∃ l ∈ opening :: inside, BeginsComment l) ∨
              LooksUncoded (Loc.trim "still comment".toList)) :=
  ⟨by decide, by decide,
    uncounted_in_open_comment_iff ["/* start"] "still comment" ["*/"] (by decide) (by decide)⟩

/-- A comment that opens behind code is not noticed: its second line counts. -/
theorem counted_in_comment_behind_code :
    modeAfter .code ["int x; /* start"] = .block ∧
      ¬ HoldsCode (read .block "still comment".toList) ∧
      Loc.marks .code ["int x; /* start", "still comment", "*/"] = [true, true, false] ∧
      Loc.countRange ["int x; /* start", "still comment", "*/"] 1 3 = 2 := by
  decide

end JavaMetrics.Metrics.Comments
