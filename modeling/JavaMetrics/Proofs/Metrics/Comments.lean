import JavaMetrics.Metrics.Loc
import JavaMetrics.Proofs.Text.Pieces
import Mathlib.Data.List.Basic

/-!
# Comments, character by character

A lexer that knows comments and nothing else: `//` opens a comment that lasts to
the end of its line, `/*` one that lasts to the first `*/` after it, on whatever
line. String literals are not known to it. `read` says of every character of a
line how it is read; a line holds code if some character of it above U+0020 is
read as code (`HoldsCode`).

The scanner that counts lines works on trimmed lines, so the lexer has to be told
on these as well. Control characters are no part of a delimiter, and the lexer
can be stopped and started again at them (`read_append`); hence it reads a
trimmed line as it reads that part of the line (`after_trim`, `holdsCode_trim`).
What follows the first `*/` is read as if the line began there
(`read_block_of_close`).
-/

namespace JavaMetrics.Metrics.Comments

open Text (isControl)

/-- Where the lexer is between two characters. -/
inductive Mode where
  | code
  | line
  | block
deriving DecidableEq, Repr

/-- How a character is read. -/
inductive Reading where
  | code
  /-- A part of `//`. -/
  | lineOpener
  /-- A part of the opening of a block comment. -/
  | opener
  /-- A part of the close of a block comment. -/
  | closer
  | comment
deriving DecidableEq, Repr

/-- Reads the characters of a line. -/
def read : Mode → List Char → List (Char × Reading)
  | _, [] => []
  | .code, '/' :: '/' :: rest => ('/', .lineOpener) :: ('/', .lineOpener) :: read .line rest
  | .code, '/' :: '*' :: rest => ('/', .opener) :: ('*', .opener) :: read .block rest
  | .code, c :: rest => (c, .code) :: read .code rest
  | .line, c :: rest => (c, .comment) :: read .line rest
  | .block, '*' :: '/' :: rest => ('*', .closer) :: ('/', .closer) :: read .code rest
  | .block, c :: rest => (c, .comment) :: read .block rest

/-- Where the lexer is after the characters of a line. -/
def after : Mode → List Char → Mode
  | mode, [] => mode
  | .code, '/' :: '/' :: rest => after .line rest
  | .code, '/' :: '*' :: rest => after .block rest
  | .code, _ :: rest => after .code rest
  | .line, _ :: rest => after .line rest
  | .block, '*' :: '/' :: rest => after .code rest
  | .block, _ :: rest => after .block rest

/-- Is some character above U+0020 read as code? -/
def HoldsCode (readings : List (Char × Reading)) : Prop :=
  ∃ x ∈ readings, x.2 = .code ∧ 0x20 < x.1.toNat

instance (readings : List (Char × Reading)) : Decidable (HoldsCode readings) :=
  inferInstanceAs (Decidable (∃ x ∈ readings, _))

/-! ## Single characters -/

/-- A character that does not open a comment is code. -/
theorem read_code_cons {c : Char} {rest : List Char}
    (hline : ∀ tail, c = '/' → rest = '/' :: tail → False)
    (hblock : ∀ tail, c = '/' → rest = '*' :: tail → False) :
    read .code (c :: rest) = (c, .code) :: read .code rest ∧
      after .code (c :: rest) = after .code rest :=
  ⟨read.eq_4 c rest hline hblock, after.eq_4 c rest hline hblock⟩

/-- A character that does not close a block comment is part of it. -/
theorem read_block_cons {c : Char} {rest : List Char}
    (hclose : ∀ tail, c = '*' → rest = '/' :: tail → False) :
    read .block (c :: rest) = (c, .comment) :: read .block rest ∧
      after .block (c :: rest) = after .block rest :=
  ⟨read.eq_7 c rest hclose, after.eq_7 c rest hclose⟩

/-! ## Stopping and starting again -/

/-- Can the text be cut off from what stands before it without cutting a delimiter? -/
def Detached (text : List Char) : Prop :=
  ∀ c ∈ text.head?, c ≠ '/' ∧ c ≠ '*'

theorem Detached.append_ne {front back : List Char} {d : Char} (h : Detached back)
    (hd : d = '/' ∨ d = '*') (hfront : ∀ tail, front = d :: tail → False) (tail : List Char)
    (heq : front ++ back = d :: tail) : False := by
  cases front with
  | nil =>
      have hne := h d (by rw [← List.nil_append back, heq]; rfl)
      rcases hd with rfl | rfl
      · exact hne.1 rfl
      · exact hne.2 rfl
  | cons c rest => exact hfront rest (by rw [(List.cons.inj heq).1])

theorem read_append (mode : Mode) (front : List Char) {back : List Char} (h : Detached back) :
    read mode (front ++ back) = read mode front ++ read (after mode front) back ∧
      after mode (front ++ back) = after (after mode front) back := by
  fun_induction read mode front with
  | case1 mode => simp [after]
  | case2 rest ih => simpa [read, after] using ih
  | case3 rest ih => simpa [read, after] using ih
  | case4 c rest hline hblock ih =>
      obtain ⟨hread, hafter⟩ := read_code_cons
        (fun tail hc => h.append_ne (.inl rfl) (fun tail => hline tail hc) tail)
        (fun tail hc => h.append_ne (.inr rfl) (fun tail => hblock tail hc) tail)
      rw [List.cons_append, hread, hafter, ih.1, ih.2, (read_code_cons hline hblock).2]
      exact ⟨rfl, rfl⟩
  | case5 c rest ih => simpa [read, after] using ih
  | case6 rest ih => simpa [read, after] using ih
  | case7 c rest hclose ih =>
      obtain ⟨hread, hafter⟩ := read_block_cons
        (fun tail hc => h.append_ne (.inl rfl) (fun tail => hclose tail hc) tail)
      rw [List.cons_append, hread, hafter, ih.1, ih.2, (read_block_cons hclose).2]
      exact ⟨rfl, rfl⟩

/-! ## Control characters -/

theorem holdsCode_append {first second : List (Char × Reading)} :
    HoldsCode (first ++ second) ↔ HoldsCode first ∨ HoldsCode second := by
  simp only [HoldsCode, List.mem_append, or_and_right, exists_or]

theorem ne_delimiter_of_isControl {c : Char} (h : isControl c = true) : c ≠ '/' ∧ c ≠ '*' := by
  constructor
  · rintro rfl
    exact absurd h (by decide)
  · rintro rfl
    exact absurd h (by decide)

theorem not_holdsCode_of_control {readings : List (Char × Reading)}
    (h : ∀ x ∈ readings, isControl x.1 = true) : ¬ HoldsCode readings := by
  rintro ⟨x, hx, -, hlarge⟩
  have hcontrol := h x hx
  rw [isControl, decide_eq_true_eq] at hcontrol
  omega

theorem not_holdsCode_of_comment {readings : List (Char × Reading)}
    (h : ∀ x ∈ readings, x.2 ≠ .code) : ¬ HoldsCode readings := by
  rintro ⟨x, hx, hcode, -⟩
  exact h x hx hcode

/-- A control character leaves the lexer where it is. -/
theorem read_cons_control {c : Char} (hc : isControl c = true) (mode : Mode) (rest : List Char) :
    (∃ reading, read mode (c :: rest) = (c, reading) :: read mode rest) ∧
      after mode (c :: rest) = after mode rest := by
  obtain ⟨hslash, hstar⟩ := ne_delimiter_of_isControl hc
  cases mode with
  | code =>
      have hplain : ∀ d tail, c = '/' → rest = d :: tail → False := fun _ _ hc _ => hslash hc
      obtain ⟨hread, hafter⟩ := read_code_cons (hplain '/') (hplain '*')
      exact ⟨⟨_, hread⟩, hafter⟩
  | line => exact ⟨⟨.comment, by rw [read]⟩, by rw [after]⟩
  | block =>
      have hplain : ∀ tail, c = '*' → rest = '/' :: tail → False := fun _ hc _ => hstar hc
      obtain ⟨hread, hafter⟩ := read_block_cons hplain
      exact ⟨⟨_, hread⟩, hafter⟩

theorem read_control_append {lead : List Char} (hlead : ∀ c ∈ lead, isControl c = true)
    (mode : Mode) (rest : List Char) :
    (∃ front, read mode (lead ++ rest) = front ++ read mode rest ∧
      ∀ x ∈ front, isControl x.1 = true) ∧ after mode (lead ++ rest) = after mode rest := by
  induction lead with
  | nil => exact ⟨⟨[], rfl, by simp⟩, rfl⟩
  | cons c lead ih =>
      have hc := hlead c List.mem_cons_self
      obtain ⟨⟨front, hfront, hcontrol⟩, hafter⟩ :=
        ih fun d hd => hlead d (List.mem_cons_of_mem _ hd)
      obtain ⟨⟨reading, hread⟩, hstep⟩ := read_cons_control hc mode (lead ++ rest)
      refine ⟨⟨(c, reading) :: front, ?_, ?_⟩, ?_⟩
      · rw [List.cons_append, hread, hfront, List.cons_append]
      · exact List.forall_mem_cons.mpr ⟨hc, hcontrol⟩
      · rw [List.cons_append, hstep, hafter]

/-! ## Trimmed lines -/

theorem exists_trim (line : List Char) :
    ∃ lead trail, line = lead ++ (Loc.trim line ++ trail) ∧
      (∀ c ∈ lead, isControl c = true) ∧ ∀ c ∈ trail, isControl c = true :=
  Text.exists_trimBoth isControl line

theorem isControl_head?_trim {line : List Char} {c : Char} {rest : List Char}
    (h : Loc.trim line = c :: rest) : isControl c = false :=
  Text.head?_trimBoth (List.head?_eq_some_iff.mpr ⟨rest, h⟩)

/-- A trimmed line is read as that part of the line is. -/
theorem read_trim (mode : Mode) (line : List Char) :
    (∃ front back, read mode line = front ++ (read mode (Loc.trim line) ++ back) ∧
      (∀ x ∈ front, isControl x.1 = true) ∧ ∀ x ∈ back, isControl x.1 = true) ∧
      after mode line = after mode (Loc.trim line) := by
  obtain ⟨lead, trail, hline, hlead, htrail⟩ := exists_trim line
  have hdetached : Detached trail := fun c hc =>
    ne_delimiter_of_isControl (htrail c (List.mem_of_mem_head? hc))
  obtain ⟨hread, hafter⟩ := read_append mode (Loc.trim line) hdetached
  obtain ⟨⟨front, hfront, hcontrol⟩, hlast⟩ :=
    read_control_append hlead mode (Loc.trim line ++ trail)
  obtain ⟨⟨back, hback, hbackControl⟩, hend⟩ :=
    read_control_append htrail (after mode (Loc.trim line)) []
  rw [List.append_nil] at hback hend
  rw [read, List.append_nil] at hback
  constructor
  · refine ⟨front, back, ?_, hcontrol, hbackControl⟩
    conv => lhs; rw [hline]
    rw [hfront, hread, hback]
  · conv => lhs; rw [hline]
    rw [hlast, hafter, hend, after]

theorem after_trim (mode : Mode) (line : List Char) :
    after mode line = after mode (Loc.trim line) :=
  (read_trim mode line).2

theorem holdsCode_trim (mode : Mode) (line : List Char) :
    HoldsCode (read mode line) ↔ HoldsCode (read mode (Loc.trim line)) := by
  obtain ⟨⟨front, back, hread, hfront, hback⟩, -⟩ := read_trim mode line
  have hnofront := not_holdsCode_of_control hfront
  have hnoback := not_holdsCode_of_control hback
  rw [hread, holdsCode_append, holdsCode_append]
  tauto

/-! ## Block comments -/

theorem read_block_of_open {line : List Char} (h : Loc.afterClose? line = none) :
    after .block line = .block ∧ ∀ x ∈ read .block line, x.2 = .comment := by
  fun_induction Loc.afterClose? line with
  | case1 => simp [after, read]
  | case2 rest => cases h
  | case3 c rest hclose ih =>
      obtain ⟨hread, hafter⟩ := read_block_cons hclose
      rw [hread, hafter]
      exact ⟨(ih h).1, List.forall_mem_cons.mpr ⟨rfl, (ih h).2⟩⟩

/-- What follows the first close is read from there as code. -/
theorem read_block_of_close {line tail : List Char} (h : Loc.afterClose? line = some tail) :
    (∃ inside, read .block line =
        inside ++ ('*', .closer) :: ('/', .closer) :: read .code tail ∧
      ∀ x ∈ inside, x.2 = .comment) ∧ after .block line = after .code tail := by
  fun_induction Loc.afterClose? line with
  | case1 => cases h
  | case2 rest =>
      injection h with h
      subst h
      exact ⟨⟨[], rfl, by simp⟩, rfl⟩
  | case3 c rest hclose ih =>
      obtain ⟨hread, hafter⟩ := read_block_cons hclose
      obtain ⟨⟨inside, hinside, hcomment⟩, hrest⟩ := ih h
      rw [hread, hafter]
      refine ⟨⟨(c, .comment) :: inside, ?_, ?_⟩, hrest⟩
      · rw [hinside, List.cons_append]
      · exact List.forall_mem_cons.mpr ⟨rfl, hcomment⟩

theorem holdsCode_block_of_close {line tail : List Char} (h : Loc.afterClose? line = some tail) :
    HoldsCode (read .block line) ↔ HoldsCode (read .code tail) := by
  obtain ⟨⟨inside, hread, hcomment⟩, -⟩ := read_block_of_close h
  have hinside : ¬ HoldsCode inside := by
    apply not_holdsCode_of_comment
    intro x hx
    rw [hcomment x hx]
    decide
  have hsplit : read .block line =
      inside ++ ([('*', .closer), ('/', .closer)] ++ read .code tail) := hread
  have hclosers : ¬ HoldsCode [('*', Reading.closer), ('/', .closer)] := by decide
  rw [hsplit, holdsCode_append, holdsCode_append]
  tauto

/-- Does a block comment open on the line that is not closed on it? -/
def LeavesOpen (readings : List (Char × Reading)) : Prop :=
  ∃ before rest, readings = before ++ ('/', .opener) :: rest ∧ ∀ x ∈ rest, x.2 ≠ .closer

theorem LeavesOpen.cons {readings : List (Char × Reading)} (h : LeavesOpen readings)
    (x : Char × Reading) : LeavesOpen (x :: readings) := by
  obtain ⟨before, rest, rfl, hrest⟩ := h
  exact ⟨x :: before, rest, rfl, hrest⟩

/-- A line at whose end the lexer is in a block comment was begun in it or opens it. -/
theorem leavesOpen_of_after {mode : Mode} {line : List Char} (h : after mode line = .block) :
    (mode = .block ∧ ∀ x ∈ read mode line, x.2 ≠ .closer) ∨ LeavesOpen (read mode line) := by
  fun_induction read mode line with
  | case1 mode => exact .inl ⟨h, by simp⟩
  | case2 rest ih =>
      rcases ih h with ⟨hmode, -⟩ | hopen
      · cases hmode
      · exact .inr ((hopen.cons _).cons _)
  | case3 rest ih =>
      rcases ih h with ⟨-, hrest⟩ | hopen
      · exact .inr ⟨[], _, rfl, List.forall_mem_cons.mpr ⟨by decide, hrest⟩⟩
      · exact .inr ((hopen.cons _).cons _)
  | case4 c rest hline hblock ih =>
      rw [(read_code_cons hline hblock).2] at h
      rcases ih h with ⟨hmode, -⟩ | hopen
      · cases hmode
      · exact .inr (hopen.cons _)
  | case5 c rest ih =>
      rw [after] at h
      rcases ih h with ⟨hmode, -⟩ | hopen
      · cases hmode
      · exact .inr (hopen.cons _)
  | case6 rest ih =>
      rcases ih h with ⟨hmode, -⟩ | hopen
      · cases hmode
      · exact .inr ((hopen.cons _).cons _)
  | case7 c rest hclose ih =>
      rw [(read_block_cons hclose).2] at h
      rcases ih h with ⟨-, hrest⟩ | hopen
      · exact .inl ⟨rfl, List.forall_mem_cons.mpr ⟨by simp, hrest⟩⟩
      · exact .inr (hopen.cons _)

/-! ## Lines -/

/-- A line comment ends with its line. -/
def Mode.nextLine : Mode → Mode
  | .line => .code
  | mode => mode

/-- Where the lexer is at the start of the next line. -/
def advance (mode : Mode) (line : String) : Mode :=
  (after mode line.toList).nextLine

/-- Where the lexer is at the start of the line after some lines. -/
def modeAfter (mode : Mode) (lines : List String) : Mode :=
  lines.foldl advance mode

/-- How the characters of a line are read, and where the lexer is at its end. -/
structure LineReading where
  readings : List (Char × Reading)
  stop : Mode
deriving DecidableEq, Repr

/-- Reads some lines, one after the other. -/
def readLines : Mode → List String → List LineReading
  | _, [] => []
  | mode, line :: rest =>
    ⟨read mode line.toList, after mode line.toList⟩ :: readLines (advance mode line) rest

theorem nextLine_eq_block_iff {mode : Mode} : mode.nextLine = .block ↔ mode = .block := by
  cases mode with
  | code => exact Iff.rfl
  | line => decide
  | block => exact Iff.rfl

theorem modeAfter_cons (mode : Mode) (line : String) (rest : List String) :
    modeAfter mode (line :: rest) = modeAfter (advance mode line) rest := rfl

theorem modeAfter_append (mode : Mode) (first second : List String) :
    modeAfter mode (first ++ second) = modeAfter (modeAfter mode first) second :=
  List.foldl_append

/-! ## Lines of one text

The same lexer for a text in which line breaks stand between the lines. It reads
the lines of such a text as `readLines` does (`readText_join`). -/

/-- Puts something in front of the first line. -/
def onFirst (front : List (Char × Reading)) : List LineReading → List LineReading
  | [] => []
  | first :: rest => ⟨front ++ first.readings, first.stop⟩ :: rest

/-- Reads a text, line by line. -/
def readText : Mode → List Char → List LineReading
  | mode, [] => [⟨[], mode⟩]
  | mode, '\n' :: rest => ⟨[], mode⟩ :: readText mode.nextLine rest
  | .code, '/' :: '/' :: rest =>
    onFirst [('/', .lineOpener), ('/', .lineOpener)] (readText .line rest)
  | .code, '/' :: '*' :: rest => onFirst [('/', .opener), ('*', .opener)] (readText .block rest)
  | .code, c :: rest => onFirst [(c, .code)] (readText .code rest)
  | .line, c :: rest => onFirst [(c, .comment)] (readText .line rest)
  | .block, '*' :: '/' :: rest => onFirst [('*', .closer), ('/', .closer)] (readText .code rest)
  | .block, c :: rest => onFirst [(c, .comment)] (readText .block rest)

theorem onFirst_onFirst (first second : List (Char × Reading)) (lines : List LineReading) :
    onFirst first (onFirst second lines) = onFirst (first ++ second) lines := by
  cases lines with
  | nil => rfl
  | cons line rest => simp [onFirst]

theorem onFirst_nil (lines : List LineReading) : onFirst [] lines = lines := by
  cases lines with
  | nil => rfl
  | cons line rest => rfl

/-- A piece of a text without line breaks is read as a part of a line. -/
theorem readText_append (mode : Mode) (front : List Char) {back : List Char}
    (hbreak : '\n' ∉ front) (h : Detached back) :
    readText mode (front ++ back) =
      onFirst (read mode front) (readText (after mode front) back) := by
  fun_induction read mode front with
  | case1 mode => rw [onFirst_nil, List.nil_append, after]
  | case2 rest ih =>
      have hrest : '\n' ∉ rest := fun hmem => hbreak (by simp [hmem])
      simp only [List.cons_append, readText, after, ih hrest, onFirst_onFirst, List.nil_append]
  | case3 rest ih =>
      have hrest : '\n' ∉ rest := fun hmem => hbreak (by simp [hmem])
      simp only [List.cons_append, readText, after, ih hrest, onFirst_onFirst, List.nil_append]
  | case4 c rest hline hblock ih =>
      obtain ⟨hc, hrest⟩ := not_or.mp (List.mem_cons.not.mp hbreak)
      rw [List.cons_append, readText.eq_5 _ _ (fun heq => hc heq.symm)
          (fun tail hc => h.append_ne (.inl rfl) (fun tail => hline tail hc) tail)
          (fun tail hc => h.append_ne (.inr rfl) (fun tail => hblock tail hc) tail),
        (read_code_cons hline hblock).2, ih hrest, onFirst_onFirst]
      rfl
  | case5 c rest ih =>
      obtain ⟨hc, hrest⟩ := not_or.mp (List.mem_cons.not.mp hbreak)
      rw [List.cons_append, readText.eq_6 _ _ (fun heq => hc heq.symm), after, ih hrest,
        onFirst_onFirst]
      rfl
  | case6 rest ih =>
      have hrest : '\n' ∉ rest := fun hmem => hbreak (by simp [hmem])
      simp only [List.cons_append, readText, after, ih hrest, onFirst_onFirst, List.nil_append]
  | case7 c rest hclose ih =>
      obtain ⟨hc, hrest⟩ := not_or.mp (List.mem_cons.not.mp hbreak)
      rw [List.cons_append, readText.eq_8 _ _ (fun heq => hc heq.symm)
          (fun tail hc => h.append_ne (.inl rfl) (fun tail => hclose tail hc) tail),
        (read_block_cons hclose).2, ih hrest, onFirst_onFirst]
      rfl

/-- The lines of a text joined by line breaks are read one after the other. -/
theorem readText_join (mode : Mode) {lines : List String} (hne : lines ≠ [])
    (hbreak : ∀ line ∈ lines, '\n' ∉ line.toList) :
    readText mode (['\n'].intercalate (lines.map String.toList)) = readLines mode lines := by
  induction lines generalizing mode with
  | nil => exact absurd rfl hne
  | cons line rest ih =>
      have hline := hbreak line List.mem_cons_self
      cases rest with
      | nil =>
          have hnil : Detached [] := by simp [Detached]
          have hread := readText_append mode line.toList hline hnil
          rw [List.append_nil] at hread
          simp [hread, readText, onFirst, readLines]
      | cons second rest =>
          have hrest := ih (advance mode line) (by simp)
            fun l hl => hbreak l (List.mem_cons_of_mem _ hl)
          have hdetached : ∀ text, Detached ('\n' :: text) := by
            intro text c hc
            obtain rfl : '\n' = c := by simpa using hc
            decide
          rw [List.map_cons, List.map_cons, List.intercalate_cons_cons, List.append_assoc,
            List.singleton_append, readText_append mode line.toList hline (hdetached _), readText,
            onFirst, List.append_nil, ← List.map_cons, readLines]
          exact congrArg _ hrest

end JavaMetrics.Metrics.Comments
