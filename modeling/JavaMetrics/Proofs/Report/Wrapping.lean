import JavaMetrics.Proofs.Report.PlainFront
import JavaMetrics.Proofs.Text.Pieces
import Mathlib.Algebra.Ring.Nat

/-!
# Wrapped text

A text that is wider than the console is printed on several lines. Nothing but blanks
is lost by that: `ink_wrap` says that all other characters are printed, in their order.
Words stay whole where they can, and as many as fit are put on a line. So a beginning
of the text that ends with a word and fits is at the beginning of the first line,
whatever comes after it (`wrap_front`).
-/

namespace JavaMetrics.Report

/-! ## Cells -/

theorem cellWidth_of_printable {c : Char} (hlow : ' ' ≤ c) (hhigh : c ≤ '~') :
    Text.cellWidth c = 1 :=
  if_pos ⟨hlow, hhigh⟩

@[simp] theorem cells_append (cs ds : List Char) :
    Text.cells (cs ++ ds) = Text.cells cs + Text.cells ds := by
  induction cs with
  | nil => simp [Text.cells]
  | cons c cs ih => rw [List.cons_append, Text.cells, Text.cells, ih, Nat.add_assoc]

@[simp] theorem cells_reverse (cs : List Char) : Text.cells cs.reverse = Text.cells cs := by
  induction cs with
  | nil => rfl
  | cons c cs ih =>
      rw [List.reverse_cons, cells_append, ih]
      simp only [Text.cells]
      omega

theorem cells_mono {front line : List Char} (h : front <+: line) :
    Text.cells front ≤ Text.cells line := by
  obtain ⟨rest, rfl⟩ := h
  rw [cells_append]
  omega

theorem cells_of_printable {cs : List Char} (h : ∀ c ∈ cs, ' ' ≤ c ∧ c ≤ '~') :
    Text.cells cs = cs.length := by
  induction cs with
  | nil => rfl
  | cons c cs ih =>
      obtain ⟨hlow, hhigh⟩ := h c List.mem_cons_self
      rw [Text.cells, cellWidth_of_printable hlow hhigh,
        ih fun d hmem => h d (List.mem_cons_of_mem c hmem), List.length_cons, Nat.add_comm]

/-! ## Ink -/

/-- The characters of a text that are no blanks. -/
def ink (cs : List Char) : List Char :=
  cs.filter fun c => !Text.isBlank c

@[simp] theorem ink_append (cs ds : List Char) : ink (cs ++ ds) = ink cs ++ ink ds :=
  List.filter_append ..

theorem ink_of_blank {cs : List Char} (h : ∀ c ∈ cs, Text.isBlank c = true) : ink cs = [] := by
  refine List.filter_eq_nil_iff.mpr fun c hmem => ?_
  simp [h c hmem]

/-! ## Tabs and excess -/

theorem ink_expandTabs (column : Nat) (line : List Char) :
    ink (expandTabs column line) = ink line := by
  fun_induction expandTabs column line with
  | case1 => rfl
  | case2 column rest width ih =>
      rw [ink_append, ih, ink_of_blank, List.nil_append]
      · rfl
      · intro c hmem
        rw [List.eq_of_mem_replicate hmem]
        rfl
  | case3 column c rest hother ih =>
      rw [← List.singleton_append, ink_append, ih, ← ink_append]
      rfl

theorem expandTabs_append {front : List Char} (h : '\t' ∉ front) (column : Nat)
    (rest : List Char) :
    expandTabs column (front ++ rest) = front ++ expandTabs (column + Text.cells front) rest := by
  induction front generalizing column with
  | nil => rfl
  | cons c front ih =>
      rw [List.mem_cons, not_or] at h
      rw [List.cons_append, expandTabs.eq_3 _ _ _ (Ne.symm h.1), ih h.2, Text.cells,
        List.cons_append, Nat.add_assoc]

theorem isBlank_head_expandTabs {column : Nat} {line : List Char}
    (h : ∀ c ∈ line.head?, Text.isBlank c = true) :
    ∀ c ∈ (expandTabs column line).head?, Text.isBlank c = true := by
  fun_induction expandTabs column line with
  | case1 => simp
  | case2 column rest width ih =>
      intro c hmem
      obtain ⟨count, hcount⟩ : ∃ count, width = count + 1 :=
        Nat.exists_eq_add_one_of_ne_zero (by omega)
      rw [hcount, List.replicate_succ] at hmem
      cases hmem
      rfl
  | case3 column c rest hother ih => exact h

theorem exists_dropBlanks (width : Nat) (line : List Char) :
    ∃ blanks, line = blanks ++ dropBlanks width line ∧ ∀ c ∈ blanks, Text.isBlank c = true := by
  induction line with
  | nil => exact ⟨[], rfl, by simp⟩
  | cons c rest ih =>
      rw [dropBlanks]
      split
      · next hdrops =>
          obtain ⟨blanks, hrest, hblank⟩ := ih
          rw [Bool.and_eq_true] at hdrops
          refine ⟨c :: blanks, by rw [List.cons_append, ← hrest], fun d hmem => ?_⟩
          rcases List.mem_cons.mp hmem with rfl | hmem
          · exact hdrops.1
          · exact hblank d hmem
      · exact ⟨[], rfl, by simp⟩

/-- What a line loses is blanks at its end. -/
theorem exists_dropExcess (width : Nat) (line : List Char) :
    ∃ blanks, line = dropExcess width line ++ blanks ∧ ∀ c ∈ blanks, Text.isBlank c = true := by
  obtain ⟨blanks, hline, hblank⟩ := exists_dropBlanks width line.reverse
  refine ⟨blanks.reverse, ?_, fun c hmem => hblank c (List.mem_reverse.mp hmem)⟩
  rw [dropExcess, ← List.reverse_append, ← hline, List.reverse_reverse]

theorem ink_dropExcess (width : Nat) (line : List Char) :
    ink (dropExcess width line) = ink line := by
  obtain ⟨blanks, hline, hblank⟩ := exists_dropExcess width line
  conv_rhs => rw [hline]
  rw [ink_append, ink_of_blank hblank, List.append_nil]

/-- Does a text fit on a line, by its characters and by their cells? -/
structure Fits (width : Nat) (cs : List Char) : Prop where
  length_le : cs.length ≤ width
  cells_le : Text.cells cs ≤ width

theorem suffix_dropBlanks {width : Nat} {back line : List Char} (h : back <:+ line)
    (hfit : Fits width back) : back <:+ dropBlanks width line := by
  induction line with
  | nil => exact h
  | cons c rest ih =>
      rw [dropBlanks]
      split
      · next hdrops =>
          rcases List.suffix_cons_iff.mp h with rfl | hrest
          · -- nothing is taken off a line that fits
            have hlength := hfit.length_le
            rw [List.length_cons] at hlength
            simp [Nat.lt_of_succ_le hlength, hfit.cells_le] at hdrops
          · exact ih hrest
      · exact h

theorem prefix_dropExcess {width : Nat} {front line : List Char} (h : front <+: line)
    (hfit : Fits width front) : front <+: dropExcess width line := by
  rw [← List.reverse_suffix, dropExcess, List.reverse_reverse]
  refine suffix_dropBlanks (List.reverse_suffix.mpr h) ⟨?_, ?_⟩
  · rw [List.length_reverse]
    exact hfit.length_le
  · rw [cells_reverse]
    exact hfit.cells_le

/-! ## Words -/

/-- A word with the blanks around it. -/
inductive IsWord : List Char → Prop
  | mk (before : List Char) {word : List Char} (after : List Char) (hne : word ≠ [])
      (hbefore : ∀ c ∈ before, Text.isBlank c = true)
      (hword : ∀ c ∈ word, Text.isBlank c = false)
      (hafter : ∀ c ∈ after, Text.isBlank c = true) : IsWord (before ++ word ++ after)

theorem drop_takeWhile (p : Char → Bool) (cs : List Char) :
    cs.drop (cs.takeWhile p).length = cs.dropWhile p := by
  have hdrop : cs.takeWhile p ++ cs.drop (cs.takeWhile p).length = cs :=
    List.prefix_iff_eq_append.mp (List.takeWhile_prefix p)
  exact List.append_cancel_left (hdrop.trans List.takeWhile_append_dropWhile.symm)

/-- The first word is cut off, unless there is nothing but blanks. -/
theorem wordsWithBlanks_cases (steps : Nat) (cs : List Char) :
    ((∀ c ∈ cs, Text.isBlank c = true) ∧ wordsWithBlanks (steps + 1) cs = []) ∨
    ∃ word rest, IsWord word ∧ cs = word ++ rest ∧
      wordsWithBlanks (steps + 1) cs = word :: wordsWithBlanks steps rest := by
  rw [wordsWithBlanks]
  simp only [drop_takeWhile]
  generalize htail : cs.dropWhile Text.isBlank = tail
  have hcs : cs = cs.takeWhile Text.isBlank ++ tail := by
    rw [← htail, List.takeWhile_append_dropWhile]
  have hbefore : ∀ c ∈ cs.takeWhile Text.isBlank, Text.isBlank c = true := fun _ hmem =>
    List.mem_takeWhile_imp hmem
  generalize cs.takeWhile Text.isBlank = before at hcs hbefore ⊢
  split
  · next hempty =>
      -- what is left begins with a character that is no blank, unless it is empty
      refine .inl ⟨?_, rfl⟩
      have hnil : tail = [] := by
        have hhead := List.head?_dropWhile_not Text.isBlank cs
        rw [htail] at hhead
        cases tail with
        | nil => rfl
        | cons c rest =>
            have hc : Text.isBlank c = false := hhead
            simp [hc] at hempty
      rw [hcs, hnil, List.append_nil]
      exact hbefore
  · next hword =>
      refine .inr ⟨_, _, .mk before _ (by simpa using hword) hbefore ?_ ?_, ?_, rfl⟩
      · intro c hmem
        simpa using List.mem_takeWhile_imp hmem
      · intro c hmem
        exact List.mem_takeWhile_imp hmem
      · simp only [List.append_assoc, List.takeWhile_append_dropWhile]
        exact hcs

theorem IsWord.length_pos {word : List Char} (h : IsWord word) : 0 < word.length := by
  obtain ⟨before, after, hne, -, -, -⟩ := h
  have := List.length_pos_of_ne_nil hne
  simp only [List.length_append]
  omega

theorem isWord_of_mem {steps : Nat} {cs word : List Char}
    (h : word ∈ wordsWithBlanks steps cs) : IsWord word := by
  induction steps generalizing cs with
  | zero => cases h
  | succ steps ih =>
      rcases wordsWithBlanks_cases steps cs with ⟨-, heq⟩ | ⟨first, rest, hfirst, -, heq⟩
      · rw [heq] at h
        cases h
      · rw [heq] at h
        rcases List.mem_cons.mp h with rfl | hmem
        · exact hfirst
        · exact ih hmem

/-- The words make up a line, but for blanks at its end. -/
theorem exists_wordsWithBlanks {steps : Nat} {cs : List Char} (h : cs.length ≤ steps) :
    ∃ blanks, cs = (wordsWithBlanks steps cs).flatten ++ blanks ∧
      ∀ c ∈ blanks, Text.isBlank c = true := by
  induction steps generalizing cs with
  | zero =>
      obtain rfl := List.length_eq_zero_iff.mp (Nat.le_zero.mp h)
      exact ⟨[], rfl, by simp⟩
  | succ steps ih =>
      rcases wordsWithBlanks_cases steps cs with ⟨hblank, heq⟩ | ⟨word, rest, hword, hcs, heq⟩
      · exact ⟨cs, by rw [heq]; rfl, hblank⟩
      · have hlength := congrArg List.length hcs
        rw [List.length_append] at hlength
        have hpos := hword.length_pos
        obtain ⟨blanks, hrest, hblank⟩ := @ih rest (by omega)
        refine ⟨blanks, ?_, hblank⟩
        rw [heq, List.flatten_cons, List.append_assoc, ← hrest]
        exact hcs

/-! ## Lines -/

theorem chop_ne_nil (width : Nat) (piece cs : List Char) : chop width piece cs ≠ [] := by
  fun_induction chop width piece cs with
  | case1 => simp
  | case2 piece c rest _ ih => exact ih
  | case3 => simp

theorem flatten_chop (width : Nat) (piece cs : List Char) :
    (chop width piece cs).flatten = piece ++ cs := by
  fun_induction chop width piece cs with
  | case1 => simp
  | case2 piece c rest _ ih => rw [ih, List.append_assoc, List.singleton_append]
  | case3 piece c rest _ ih => rw [List.flatten_cons, ih, List.singleton_append]

/-- The lines hold what is on the current one and the words, in this order. -/
theorem flatten_layWords (width : Nat) (line : List Char) (words : List (List Char)) :
    (layWords width line words).flatten = line ++ words.flatten := by
  fun_induction layWords width line words with
  | case1 line => simp
  | case2 line word rest length _ ih => rw [ih, List.flatten_cons, List.append_assoc]
  | case3 line word rest length _ _ parts full ih =>
      obtain ⟨most, last, hparts⟩ :=
        (List.eq_nil_or_concat' parts).resolve_left (chop_ne_nil width [] word)
      have hword : most.flatten ++ last = word := by
        have hflatten : parts.flatten = word := flatten_chop width [] word
        rw [← hflatten, hparts, List.flatten_append, List.flatten_singleton]
      have hfull : full = most := by
        rw [show full = parts.dropLast from rfl, hparts, List.dropLast_concat]
      rw [hparts, List.getLastD_concat] at ih ⊢
      rw [hfull, List.flatten_append, ih, List.flatten_cons, ← hword]
      split
      · next hempty => simp [List.isEmpty_iff.mp hempty]
      · simp
  | case4 line word rest length _ _ hempty ih =>
      rw [ih, List.isEmpty_iff.mp hempty, List.flatten_cons, List.nil_append]
  | case5 line word rest length _ _ _ ih => rw [List.flatten_cons, ih, List.flatten_cons]

theorem layWords_of_line {line : List Char} (hline : line ≠ []) (width : Nat)
    (words : List (List Char)) :
    ∃ more tail, layWords width line words = (line ++ more) :: tail := by
  induction words generalizing line with
  | nil => exact ⟨[], [], by simp [layWords]⟩
  | cons word rest ih =>
      have hempty : line.isEmpty = false := by simpa using hline
      rw [layWords]
      simp only [hempty, Bool.false_eq_true, if_false]
      split
      · obtain ⟨more, tail, heq⟩ := @ih (line ++ word) (by simp [hline])
        exact ⟨word ++ more, tail, by rw [heq, List.append_assoc]⟩
      · split
        · exact ⟨[], _, by rw [List.append_nil, List.cons_append]⟩
        · exact ⟨[], _, by rw [List.append_nil]⟩

/-- Does the front of a text end with a word, before the rest of the text? -/
structure EndsWithWord (front rest : List Char) : Prop where
  last : ∃ c ∈ front.getLast?, Text.isBlank c = false
  next : ∀ c ∈ rest.head?, Text.isBlank c = true

theorem cells_trimmed {before word after : List Char} (hne : word ≠ [])
    (hword : ∀ c ∈ word, Text.isBlank c = false)
    (hafter : ∀ c ∈ after, Text.isBlank c = true) :
    Text.cells ((before ++ word ++ after).reverse.dropWhile Text.isBlank) =
      Text.cells (before ++ word) := by
  obtain ⟨most, last, rfl⟩ := (List.eq_nil_or_concat' word).resolve_left hne
  have hlast : Text.isBlank last = false := hword last (by simp)
  have hkept : (before ++ (most ++ [last])).reverse.dropWhile Text.isBlank =
      (before ++ (most ++ [last])).reverse := by
    rw [← List.append_assoc, List.reverse_append, List.reverse_singleton, List.singleton_append,
      List.dropWhile_cons_of_neg (by simp [hlast])]
  rw [List.reverse_append, List.dropWhile_append_of_pos (by simpa using hafter), hkept,
    cells_reverse]

/-- If a front goes on behind the current line, the next word is a part of it. -/
theorem word_within_front {front rest line word others : List Char} (hword : IsWord word)
    (hends : EndsWithWord front rest) (heq : line ++ (word ++ others) = front ++ rest)
    (hlonger : line.length < front.length) :
    Text.cells (word.reverse.dropWhile Text.isBlank) + Text.cells line ≤ Text.cells front := by
  obtain ⟨last, hmem, hlast⟩ := hends.last
  obtain ⟨part, hfront, hpart⟩ :
      ∃ part, front = line ++ part ∧ word ++ others = part ++ rest := by
    rcases List.append_eq_append_iff.mp heq with ⟨part, hfront, hpart⟩ | ⟨more, hline, -⟩
    · exact ⟨part, hfront, hpart⟩
    · rw [hline, List.length_append] at hlonger
      omega
  obtain @⟨before, core, after, hne, hbefore, hcore, hafter⟩ := hword
  rw [cells_trimmed hne hcore hafter]
  suffices hle : before ++ core <+: part by
    rw [hfront, cells_append line part, Nat.add_comm]
    exact Nat.add_le_add_left (cells_mono hle) _
  rw [hfront, List.length_append] at hlonger
  have hsplit : (before ++ core) ++ (after ++ others) = part ++ rest := by
    rw [← hpart]
    simp
  -- else the front ends inside the word or the blanks before it
  rcases List.append_eq_append_iff.mp hsplit with ⟨more, hmore, -⟩ | ⟨inside, hinside, hrest⟩
  · exact ⟨more, hmore.symm⟩
  · have hlast' : last ∈ part := by
      rw [hfront, List.getLast?_append_of_ne_nil] at hmem
      · exact List.mem_of_getLast? hmem
      · rintro rfl
        simp at hlonger
    rcases List.append_eq_append_iff.mp hinside with ⟨more, hmore, hcore'⟩ | ⟨more, hmore, -⟩
    · cases inside with
      | nil => exact ⟨[], by rw [hinside, List.append_nil, List.append_nil]⟩
      | cons c inside =>
          have hblank := hends.next c (by rw [hrest]; rfl)
          rw [hcore c (by rw [hcore']; simp)] at hblank
          cases hblank
    · rw [hbefore last (by rw [hmore]; exact List.mem_append_left _ hlast')] at hlast
      cases hlast

/-- A front of the line and the words that ends with a word and fits is on the first line. -/
theorem layWords_front {width : Nat} {front rest line : List Char} {words : List (List Char)}
    (hwords : ∀ word ∈ words, IsWord word) (hfit : Text.cells front ≤ width)
    (hends : EndsWithWord front rest) (heq : line ++ words.flatten = front ++ rest) :
    ∃ first tail, layWords width line words = first :: tail ∧ front <+: first := by
  have hne : front ≠ [] := by
    rintro rfl
    obtain ⟨c, hmem, -⟩ := hends.last
    cases hmem
  induction words generalizing line with
  | nil =>
      rw [List.flatten_nil, List.append_nil] at heq
      exact ⟨line, [], rfl, by rw [heq]; exact List.prefix_append _ _⟩
  | cons word others ih =>
      by_cases hlonger : line.length < front.length
      · have hword := word_within_front (hwords word List.mem_cons_self) hends heq hlonger
        rw [layWords, if_pos (Nat.le_trans hword hfit)]
        refine ih (fun other hmem => hwords other (List.mem_cons_of_mem _ hmem)) ?_
        rw [← heq, List.flatten_cons, List.append_assoc]
      · -- the front is already on the current line, where it stays
        have hfront : front <+: line := List.prefix_of_prefix_length_le
          (heq ▸ List.prefix_append front rest) (List.prefix_append line _) (by omega)
        have hline : line ≠ [] := by
          rintro rfl
          exact hne (List.prefix_nil.mp hfront)
        obtain ⟨more, tail, hlines⟩ := layWords_of_line hline width (word :: others)
        exact ⟨_, tail, hlines, hfront.trans (List.prefix_append _ _)⟩

/-! ## Texts -/

/-- The parts of a line of a text, before they lose anything. -/
def partsOf (line : List Char) : List (List Char) :=
  let words := wordsWithBlanks (expandTabs 0 line).length (expandTabs 0 line)
  if words.isEmpty then [expandTabs 0 line] else layWords consoleWidth [] words

theorem wrap_eq (text : List Char) : wrap text = (Text.splitAt '\n' text).flatMap fun line =>
    (partsOf line).map fun part => String.ofList (dropExcess consoleWidth part) := rfl

theorem flatMap_ink (parts : List (List Char)) : parts.flatMap ink = ink parts.flatten := by
  rw [ink, List.filter_flatten, List.flatMap_def]
  rfl

theorem ink_partsOf (line : List Char) : (partsOf line).flatMap ink = ink line := by
  obtain ⟨blanks, hline, hblank⟩ := exists_wordsWithBlanks (Nat.le_refl (expandTabs 0 line).length)
  rw [flatMap_ink, ← ink_expandTabs 0 line, partsOf]
  split
  · rw [List.flatten_singleton]
  · rw [flatten_layWords, List.nil_append]
    conv_rhs => rw [hline]
    rw [ink_append, ink_of_blank hblank, List.append_nil]

/-- All characters but blanks are printed, in their order. -/
theorem ink_wrap (text : List Char) :
    (wrap text).flatMap (fun line => ink line.toList) = ink text := by
  have hline (line : List Char) : ((partsOf line).map fun part =>
      String.ofList (dropExcess consoleWidth part)).flatMap (fun line => ink line.toList) =
        ink line := by
    rw [List.flatMap_map, ← ink_partsOf]
    simp only [String.toList_ofList, ink_dropExcess]
  rw [wrap_eq, List.flatMap_assoc]
  simp only [hline]
  rw [flatMap_ink, Text.flatten_splitAt, ink, ink, List.filter_filter]
  refine List.filter_congr fun c _ => ?_
  by_cases hc : c = '\n'
  · rw [hc]
    rfl
  · simp [hc]

theorem EndsWithWord.of_prefix {front rest more : List Char} (h : EndsWithWord front rest)
    (hmore : more <+: rest) : EndsWithWord front more where
  last := h.last
  next c hmem := by
    obtain ⟨behind, rfl⟩ := hmore
    cases more with
    | nil => cases hmem
    | cons d more => exact h.next c hmem

theorem partsOf_front {front rest : List Char} (hends : EndsWithWord front rest)
    (htab : '\t' ∉ front) (hfit : Text.cells front ≤ consoleWidth) :
    ∃ first tail, partsOf (front ++ rest) = first :: tail ∧ front <+: first := by
  have hexpanded := expandTabs_append htab 0 rest
  rw [partsOf, hexpanded]
  generalize hbehind : expandTabs (0 + Text.cells front) rest = behind
  have hends' : EndsWithWord front behind :=
    ⟨hends.last, hbehind ▸ isBlank_head_expandTabs hends.next⟩
  obtain ⟨blanks, hline, hblank⟩ := exists_wordsWithBlanks (Nat.le_refl (front ++ behind).length)
  have hwords : ∀ word ∈ wordsWithBlanks (front ++ behind).length (front ++ behind), IsWord word :=
    fun _ => isWord_of_mem
  generalize wordsWithBlanks (front ++ behind).length (front ++ behind) = words at hline hwords ⊢
  split
  · exact ⟨_, [], rfl, List.prefix_append _ _⟩
  · -- the blanks that are in no word are behind the front, which ends with a word
    rcases List.append_eq_append_iff.mp hline with ⟨more, hflatten, hmore⟩ | ⟨more, hmore, hrest⟩
    · refine layWords_front hwords hfit (hends'.of_prefix ⟨blanks, hmore.symm⟩) hflatten
    · obtain ⟨last, hmem, hlast⟩ := hends.last
      by_cases hempty : more = []
      · rw [hempty, List.append_nil] at hmore
        refine layWords_front hwords hfit (hends'.of_prefix List.nil_prefix) ?_
        rw [hmore, List.nil_append, List.append_nil]
      · rw [hmore, List.getLast?_append_of_ne_nil _ hempty] at hmem
        have hlast' := hblank last (by rw [hrest]; simp [List.mem_of_getLast? hmem])
        rw [hlast'] at hlast
        cases hlast

/-- A front that ends with a word and fits is on the first line. -/
theorem wrap_front {front rest : List Char} (hends : EndsWithWord front rest)
    (hbreak : '\n' ∉ front) (htab : '\t' ∉ front) (hfit : Fits consoleWidth front) :
    ∃ first tail, wrap (front ++ rest) = first :: tail ∧ front <+: first.toList := by
  obtain ⟨more, others, hsplit, hmore⟩ := @Text.exists_splitFrom '\n' front.reverse rest
  obtain ⟨part, parts, hparts, hfront⟩ :=
    partsOf_front (hends.of_prefix hmore) htab hfit.cells_le
  have hlines : Text.splitAt '\n' (front ++ rest) = (front ++ more) :: others := by
    rw [Text.splitAt, Text.splitFrom_append hbreak, List.append_nil, hsplit, List.reverse_reverse]
  refine ⟨_, _, by rw [wrap_eq, hlines, List.flatMap_cons, hparts, List.map_cons]; rfl, ?_⟩
  rw [String.toList_ofList]
  exact prefix_dropExcess hfront hfit

/-! ## The message about the table -/

theorem printable_exported (count : Nat) :
    ∀ c ∈ s!"Exported {count} class metrics to:".toList, ' ' ≤ c ∧ c ≤ '~' := by
  have hall {cs : List Char} (h : cs.all (fun c => ' ' ≤ c && c ≤ '~') = true) :
      ∀ c ∈ cs, ' ' ≤ c ∧ c ≤ '~' := by
    simpa using h
  intro c hmem
  rw [String.toList_append, String.toList_append, List.mem_append, List.mem_append] at hmem
  rcases hmem with (hfront | hdigit) | hbehind
  · exact hall (by decide) c hfront
  · have hdigit := isDigit_of_mem_toString hdigit
    rw [Char.isDigit, Bool.and_eq_true, decide_eq_true_iff, decide_eq_true_iff] at hdigit
    exact ⟨Char.le_trans (by decide) hdigit.1, Char.le_trans hdigit.2 (by decide)⟩
  · exact hall (by decide) c hbehind

section

variable {count : Nat} {path : String} {text : List Char}
  (h : plainText s!"Exported {count} class metrics to: {path}" = .ok text)

include h

theorem exists_exported : ∃ rest,
    text = s!"Exported {count} class metrics to:".toList ++ ' ' :: rest := by
  obtain ⟨rest, rfl⟩ := exported_front h
  have hspace : " class metrics to: ".toList = " class metrics to:".toList ++ [' '] := rfl
  refine ⟨rest, ?_⟩
  rw [String.toList_append, String.toList_append, String.toList_append, String.toList_append]
  change _ ++ _ ++ " class metrics to: ".toList ++ rest = _
  rw [hspace, List.append_assoc, List.append_assoc, List.append_assoc, List.append_assoc]
  rfl

theorem ink_exported : ink s!"Exported {count} class metrics to:".toList <+:
    (wrap text).flatMap fun line => ink line.toList := by
  obtain ⟨rest, rfl⟩ := exists_exported h
  rw [ink_wrap, ink_append]
  exact List.prefix_append _ _

/-- The number of records is on one line with what it counts, if it is of a usual size. -/
theorem exported_line (hcount : count < 10 ^ 50) : ∃ first tail, wrap text = first :: tail ∧
    s!"Exported {count} class metrics to:".toList <+: first.toList := by
  obtain ⟨rest, rfl⟩ := exists_exported h
  have hdigits : (toString count).toList.length ≤ 50 := by
    rw [Nat.toString_eq_repr, String.length_toList]
    exact (Nat.length_repr_le_iff (by decide)).mpr hcount
  have hprintable := printable_exported count
  have hfit : (s!"Exported {count} class metrics to:".toList).length ≤ consoleWidth := by
    rw [String.toList_append, String.toList_append, List.length_append, List.length_append]
    show 9 + (toString count).toList.length + 18 ≤ 80
    omega
  refine wrap_front ⟨⟨':', ?_, rfl⟩, ?_⟩ (fun hmem => ?_) (fun hmem => ?_)
    ⟨hfit, (cells_of_printable hprintable).trans_le hfit⟩
  · rw [String.toList_append, List.getLast?_append_of_ne_nil _ (by decide)]
    rfl
  · intro c hmem
    cases hmem
    rfl
  · exact absurd (hprintable _ hmem).1 (by decide)
  · exact absurd (hprintable _ hmem).1 (by decide)

end

end JavaMetrics.Report
