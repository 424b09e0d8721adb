import JavaMetrics.Proofs.Metrics.OpenComments

/-!
# Code that goes uncounted

On lines that open comments behind code, or close several of them, scanner and
lexer part, and then the scanner may pass over a line that holds code. It cannot
pass over just any line. The two part in one direction only: the scanner may miss
that a block comment is open, but it is never in one that the lexer is not in
(`block_of_stateAfter`). So what the scanner skips as the inside of a comment is
skipped with reason, and a line that holds code is lost only by how it looks.

`uncounted_iff_overlooked` says by which looks, exactly: the line begins with a
star, or with `//` while the lexer is still in a block comment, or it begins with or
in a block comment and another comment follows the first `*/` on it. In the last
case the first `*/` may be the one inside `/*/`, which does not close the comment;
what matters is that something visible follows it (`exists_close`).
-/

namespace JavaMetrics.Metrics.Comments

/-- Does another comment follow the first `*/` of the line? -/
def CommentFollows (line : List Char) : Prop :=
  ∃ tail ∈ Loc.afterClose? line, ['/', '/'] <+: Loc.trim tail ∨ ['/', '*'] <+: Loc.trim tail

/-- Does a trimmed line look as if it held no code, to a scanner in this state and while the lexer
begins it in this mode? -/
def Overlooked (mode : Mode) (state : Loc.State) (line : List Char) : Prop :=
  (state = .code ∧ ['*'] <+: line) ∨
    (state = .code ∧ ['/', '/'] <+: line ∧ mode = .block) ∨
      ((['/', '*'] <+: line ∨ state = .block) ∧ CommentFollows line)

/-! ## What follows a close -/

theorem trim_ne_nil_of_holdsCode {mode : Mode} {text : List Char}
    (h : HoldsCode (read mode text)) : Loc.trim text ≠ [] := by
  intro hnil
  rw [holdsCode_trim, hnil, read] at h
  simp [HoldsCode] at h

theorem exists_close_of_block {line : List Char} (h : HoldsCode (read .block line)) :
    ∃ tail, Loc.afterClose? line = some tail ∧ Loc.trim tail ≠ [] := by
  cases hclose : Loc.afterClose? line with
  | none =>
      refine absurd h (not_holdsCode_of_comment ?_)
      intro x hx
      rw [(read_block_of_open hclose).2 x hx]
      decide
  | some tail =>
      rw [holdsCode_block_of_close hclose] at h
      exact ⟨tail, rfl, trim_ne_nil_of_holdsCode h⟩

/-- A line with code that begins in or with a block comment has a `*/` and something visible after
it, also where the scanner takes the star of `/*/` twice. -/
theorem exists_close {mode : Mode} {line : List Char} (hcode : HoldsCode (read mode line))
    (h : mode = .block ∨ mode = .code ∧ ['/', '*'] <+: line) :
    ∃ tail, Loc.afterClose? line = some tail ∧ Loc.trim tail ≠ [] := by
  rcases h with rfl | ⟨rfl, rest, rfl⟩
  · exact exists_close_of_block hcode
  · have hrest : HoldsCode (read .block rest) := (holdsCode_opener rest).mp hcode
    by_cases hslash : ['/'] <+: rest
    · obtain ⟨tail, rfl⟩ := hslash
      refine ⟨tail, by simp [Loc.afterClose?], ?_⟩
      have hread : read .block ('/' :: tail) = [('/', .comment)] ++ read .block tail :=
        (read_block_cons (by simp)).1
      have hno : ¬ HoldsCode [('/', Reading.comment)] := by decide
      rw [List.singleton_append, hread, holdsCode_append] at hrest
      exact trim_ne_nil_of_holdsCode (hrest.resolve_left hno)
    · rw [List.cons_append, List.cons_append, List.nil_append, afterClose?_opener hslash]
      exact exists_close_of_block hrest

theorem closeBlock_snd_eq_false_iff {line tail : List Char}
    (hclose : Loc.afterClose? line = some tail) (hne : Loc.trim tail ≠ []) :
    (Loc.closeBlock line).2 = false ↔ CommentFollows line := by
  have hfollows : CommentFollows line ↔ Loc.opensComment (Loc.trim tail) = true := by
    rw [opensComment_eq_true_iff]
    simp [CommentFollows, hclose]
  rw [hfollows, Loc.closeBlock, hclose]
  simp [Loc.holdsCode, hne]

/-! ## One line -/

/-- Of the lines that hold code, those that look so are not counted, and no others. -/
theorem stepTrimmed_snd_eq_false_iff_overlooked {mode : Mode} {state : Loc.State}
    {line : List Char} (hmode : mode ≠ .line) (hstate : state = .block → mode = .block)
    (hcode : HoldsCode (read mode line)) :
    (Loc.stepTrimmed state line).2 = false ↔ Overlooked mode state line := by
  have houtside : mode ≠ .block → mode = .code := by
    cases mode <;> simp_all
  fun_cases Loc.stepTrimmed state line with
  | case1 state => exact absurd (by simp [Loc.trim, Text.trimBoth]) (trim_ne_nil_of_holdsCode hcode)
  | case2 line hne =>
      obtain ⟨tail, hclose, htail⟩ := exists_close hcode (.inl (hstate rfl))
      rw [closeBlock_snd_eq_false_iff hclose htail]
      simp [Overlooked]
  | case3 rest =>
      have hbegins : mode = .block ∨ mode = .code ∧ ['/', '*'] <+: '/' :: '*' :: rest := by
        by_cases hblock : mode = .block
        · exact .inl hblock
        · exact .inr ⟨houtside hblock, rest, rfl⟩
      obtain ⟨tail, hclose, htail⟩ := exists_close hcode hbegins
      rw [closeBlock_snd_eq_false_iff hclose htail]
      simp [Overlooked]
  | case4 rest =>
      -- outside of comments the rest of the line would be one
      have hblock : mode = .block := by
        by_contra hne
        rw [houtside hne] at hcode
        exact not_holdsCode_line_comment rest hcode
      simp [Overlooked, hblock]
  | case5 rest => simp [Overlooked]
  | case6 line hne hblock hline hstar =>
      have hnostar : ¬ ['*'] <+: line := fun h =>
        h.elim fun rest hrest => hstar rest hrest.symm
      have hnoline : ¬ ['/', '/'] <+: line := fun h =>
        h.elim fun rest hrest => hline rest hrest.symm
      have hnoblock : ¬ ['/', '*'] <+: line := fun h =>
        h.elim fun rest hrest => hblock rest hrest.symm
      simp [Overlooked, hnostar, hnoline, hnoblock]

/-! ## All lines -/

theorem modeAfter_ne_line {mode : Mode} (hmode : mode ≠ .line) (lines : List String) :
    modeAfter mode lines ≠ .line := by
  induction lines generalizing mode with
  | nil => exact hmode
  | cons line rest ih => exact ih (nextLine_ne_line _)

/-- What the scanner can lose of the code on some lines. -/
structure LossAccount (lines : List String) : Prop where
  /-- The scanner is in a block comment after a line only if the lexer is. -/
  inside : ∀ before later, lines = before ++ later →
    Loc.stateAfter .code before = .block → modeAfter .code before = .block
  /-- A line that holds code is not counted exactly if it is overlooked. -/
  lost : ∀ before line later, lines = before ++ line :: later →
    HoldsCode (read (modeAfter .code before) line.toList) →
      ((Loc.marks .code lines)[before.length]? = some false ↔
        Overlooked (modeAfter .code before) (Loc.stateAfter .code before)
          (Loc.trim line.toList))
  count : Loc.countRange lines 1 lines.length = (Loc.marks .code lines).count true
  /-- The lexer reads the lines as it reads the text that is made of them. -/
  joined : lines ≠ [] → (∀ line ∈ lines, '\n' ∉ line.toList) →
    readText .code (['\n'].intercalate (lines.map String.toList)) = readLines .code lines

/-- Whatever the comments on some lines look like, the scanner is never in a block comment alone, and
the lines that hold code and go uncounted are those of three looks. -/
theorem uncounted_iff_overlooked (lines : List String) : LossAccount lines where
  inside before later _ h := block_of_stateAfter h
  lost before line later hlines hcode := by
    subst hlines
    rw [mark_eq, Option.some.injEq, Loc.step]
    rw [holdsCode_trim] at hcode
    exact stepTrimmed_snd_eq_false_iff_overlooked (modeAfter_ne_line (by decide) before)
      block_of_stateAfter hcode
  count := Loc.countRange_all lines
  joined hne hbreak := readText_join .code hne hbreak

/-- A line of each of the three looks, with the comment that the second one needs. -/
def overlookedLines : List String :=
  ["* 2 + b", "int a; /*", "// b */ int c;", "/* d */ /* e */ int f;"]

theorem uncounted_in_three_looks :
    Loc.marks .code overlookedLines = [false, true, false, false] ∧
      (readLines .code overlookedLines).map (fun line => decide (HoldsCode line.readings)) =
        [true, true, true, true] ∧
      LossAccount overlookedLines :=
  ⟨by decide, by decide, uncounted_iff_overlooked overlookedLines⟩

end JavaMetrics.Metrics.Comments
