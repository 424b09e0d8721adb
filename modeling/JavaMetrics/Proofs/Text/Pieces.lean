import JavaMetrics.Text.Blank
import Mathlib.Data.List.DropRight

/-!
# Pieces of a text

What is left of a text when the characters of a class are taken off its ends, or out
of it altogether, and the pieces into which it is cut at a separator. The main
statements have no recursion of the definitions in them: a text is what its ends were
taken off of, with nothing but the class on either side (`exists_trimBoth`), and cutting
undoes joining (`splitAt_intercalate`) as joining undoes cutting
(`intercalate_splitAt`).
-/

namespace JavaMetrics.Text

/-! ## Ends -/

section

variable {p : Char → Bool} {cs : List Char}

theorem trimBoth_append_left {lead : List Char} (hlead : ∀ c ∈ lead, p c = true)
    (rest : List Char) : trimBoth p (lead ++ rest) = trimBoth p rest := by
  rw [trimBoth, List.dropWhile_append_of_pos hlead]
  rfl

theorem trimBoth_append_right {trail : List Char} (htrail : ∀ c ∈ trail, p c = true)
    (front : List Char) : trimBoth p (front ++ trail) = trimBoth p front := by
  have hreverse : ∀ c ∈ trail.reverse, p c = true := by
    intro c hc
    exact htrail c (List.mem_reverse.mp hc)
  rw [trimBoth, List.dropWhile_append]
  split
  · next hempty =>
      rw [List.isEmpty_iff] at hempty
      rw [trimBoth, hempty, List.dropWhile_eq_nil_iff.mpr htrail]
  · rw [List.reverse_append, List.dropWhile_append_of_pos hreverse]
    rfl

theorem exists_trimBoth (p : Char → Bool) (cs : List Char) :
    ∃ lead trail, cs = lead ++ (trimBoth p cs ++ trail) ∧
      (∀ c ∈ lead, p c = true) ∧ ∀ c ∈ trail, p c = true := by
  refine ⟨cs.takeWhile p, (cs.dropWhile p).rtakeWhile p, ?_, ?_, ?_⟩
  · have hright : trimBoth p cs ++ (cs.dropWhile p).rtakeWhile p = cs.dropWhile p :=
      List.rdropWhile_append_rtakeWhile ..
    rw [hright, List.takeWhile_append_dropWhile]
  · intro c hc
    exact List.mem_takeWhile_imp hc
  · intro c hc
    exact List.mem_rtakeWhile_imp hc

theorem head?_trimBoth {c : Char} (h : c ∈ (trimBoth p cs).head?) : p c = false := by
  obtain ⟨rest, hrest⟩ := List.head?_eq_some_iff.mp h
  have hstarts : c :: rest <+: cs.dropWhile p := hrest ▸ List.rdropWhile_prefix p _
  obtain ⟨trail, htrail⟩ := hstarts
  have hhead := List.head?_dropWhile_not p cs
  rw [← htrail] at hhead
  exact hhead

theorem getLast?_trimBoth {c : Char} (h : c ∈ (trimBoth p cs).getLast?) : p c = false := by
  have hhead := List.head?_dropWhile_not p (cs.dropWhile p).reverse
  rw [trimBoth, List.getLast?_reverse, Option.mem_def] at h
  rw [h] at hhead
  exact hhead

/-- A text with other characters at both ends stays as it is. -/
theorem trimBoth_eq_self (hfirst : ∀ c ∈ cs.head?, p c = false)
    (hlast : ∀ c ∈ cs.getLast?, p c = false) : trimBoth p cs = cs := by
  have hfront : ∀ {ds : List Char}, (∀ c ∈ ds.head?, p c = false) → ds.dropWhile p = ds := by
    intro ds hds
    cases ds with
    | nil => rfl
    | cons d ds => rw [List.dropWhile_cons, hds d rfl, if_neg Bool.false_ne_true]
  rw [List.getLast?_eq_head?_reverse] at hlast
  rw [trimBoth, hfront hfirst, hfront hlast, List.reverse_reverse]

theorem trimBoth_eq_nil_iff : trimBoth p cs = [] ↔ ∀ c ∈ cs, p c = true := by
  constructor
  · intro h
    obtain ⟨lead, trail, hcs, hlead, htrail⟩ := exists_trimBoth p cs
    rw [h, List.nil_append] at hcs
    rw [hcs, List.forall_mem_append]
    exact ⟨hlead, htrail⟩
  · intro h
    rw [trimBoth, List.dropWhile_eq_nil_iff.mpr h]
    rfl

theorem mem_of_mem_trimBoth {c : Char} (h : c ∈ trimBoth p cs) : c ∈ cs := by
  obtain ⟨lead, trail, hcs, -, -⟩ := exists_trimBoth p cs
  rw [hcs]
  exact List.mem_append_right _ (List.mem_append_left _ h)

/-! ## Runs -/

/-- The runs outside of a class make up the text without the class. -/
theorem flatten_runsFrom (p : Char → Bool) (run cs : List Char) :
    (runsFrom p run cs).flatten = run.reverse ++ cs.filter fun c => !p c := by
  induction cs generalizing run with
  | nil => cases run <;> simp [runsFrom]
  | cons c cs ih =>
      rw [runsFrom]
      cases hc : p c with
      | false => simp [ih, hc]
      | true => cases run <;> simp [ih, hc]

end

/-! ## Pieces between separators -/

section

variable {sep : Char}

theorem splitFrom_ne_nil (piece cs : List Char) : splitFrom sep piece cs ≠ [] := by
  induction cs generalizing piece with
  | nil => simp [splitFrom]
  | cons c cs ih =>
      rw [splitFrom]
      split
      · simp
      · exact ih _

theorem not_mem_splitFrom {piece cs : List Char} (hpiece : sep ∉ piece) :
    ∀ part ∈ splitFrom sep piece cs, sep ∉ part := by
  induction cs generalizing piece with
  | nil => simpa [splitFrom] using hpiece
  | cons c cs ih =>
      rw [splitFrom]
      split
      · rw [List.forall_mem_cons, List.mem_reverse]
        exact ⟨hpiece, ih (by simp)⟩
      · next hc =>
          refine ih ?_
          rw [List.mem_cons, not_or]
          exact ⟨fun heq => hc (beq_iff_eq.mpr heq.symm), hpiece⟩

/-- The pieces make up the text without its separators. -/
theorem flatten_splitFrom (piece cs : List Char) :
    (splitFrom sep piece cs).flatten = piece.reverse ++ cs.filter (· != sep) := by
  induction cs generalizing piece with
  | nil => simp [splitFrom]
  | cons c cs ih =>
      rw [splitFrom]
      split
      · next hc => simp [ih, beq_iff_eq.mp hc]
      · next hc =>
          have hne : c ≠ sep := fun heq => hc (beq_iff_eq.mpr heq)
          simp [ih, hne]

theorem flatten_splitAt (cs : List Char) : (splitAt sep cs).flatten = cs.filter (· != sep) :=
  flatten_splitFrom [] cs

/-- The first piece goes on as long as there is no separator. -/
theorem exists_splitFrom (piece cs : List Char) :
    ∃ more tail, splitFrom sep piece cs = (piece.reverse ++ more) :: tail ∧ more <+: cs := by
  induction cs generalizing piece with
  | nil => exact ⟨[], [], by simp [splitFrom], List.prefix_rfl⟩
  | cons c cs ih =>
      rw [splitFrom]
      split
      · exact ⟨[], _, by rw [List.append_nil], List.nil_prefix⟩
      · obtain ⟨more, tail, heq, hmore⟩ := ih (c :: piece)
        refine ⟨c :: more, tail, ?_, List.cons_prefix_cons.mpr ⟨rfl, hmore⟩⟩
        rw [heq, List.reverse_cons, List.append_assoc, List.singleton_append]

theorem splitFrom_append {front : List Char} (h : sep ∉ front) (piece rest : List Char) :
    splitFrom sep piece (front ++ rest) = splitFrom sep (front.reverse ++ piece) rest := by
  induction front generalizing piece with
  | nil => rfl
  | cons c front ih =>
      obtain ⟨hc, hfront⟩ := not_or.mp (List.mem_cons.not.mp h)
      have hne : (c == sep) = false := beq_eq_false_iff_ne.mpr fun heq => hc heq.symm
      rw [List.cons_append, splitFrom, hne, if_neg (by simp), ih hfront]
      simp

theorem splitFrom_append_sep (piece front rest : List Char) :
    splitFrom sep piece (front ++ sep :: rest) =
      splitFrom sep piece front ++ splitFrom sep [] rest := by
  induction front generalizing piece with
  | nil => simp [splitFrom]
  | cons c front ih =>
      rw [List.cons_append, splitFrom, splitFrom]
      split
      · rw [ih, List.cons_append]
      · exact ih _

/-- A separator cuts, whatever stands before and behind it. -/
theorem splitAt_append_sep (front rest : List Char) :
    splitAt sep (front ++ sep :: rest) = splitAt sep front ++ splitAt sep rest :=
  splitFrom_append_sep [] front rest

theorem splitAt_intercalate {pieces : List (List Char)} (hne : pieces ≠ [])
    (h : ∀ piece ∈ pieces, sep ∉ piece) : splitAt sep ([sep].intercalate pieces) = pieces := by
  induction pieces with
  | nil => exact absurd rfl hne
  | cons first rest ih =>
      rw [List.forall_mem_cons] at h
      cases rest with
      | nil =>
          have hsplit := splitFrom_append h.1 [] []
          rw [List.append_nil] at hsplit
          rw [List.intercalate_singleton, splitAt, hsplit]
          simp [splitFrom]
      | cons second rest =>
          rw [List.intercalate_cons_cons, List.append_assoc, splitAt, splitFrom_append h.1,
            List.singleton_append, splitFrom, if_pos (by simp)]
          have hrest := ih (by simp) h.2
          rw [splitAt] at hrest
          simp [hrest]

theorem splitAt_of_notMem {cs : List Char} (h : sep ∉ cs) : splitAt sep cs = [cs] := by
  have hsplit := splitAt_intercalate (List.cons_ne_nil cs []) (List.forall_mem_singleton.mpr h)
  rwa [List.intercalate_singleton] at hsplit

theorem intercalate_splitFrom (piece cs : List Char) :
    [sep].intercalate (splitFrom sep piece cs) = piece.reverse ++ cs := by
  induction cs generalizing piece with
  | nil => simp [splitFrom]
  | cons c cs ih =>
      rw [splitFrom]
      split
      · next hc =>
          rw [List.intercalate_cons_of_ne_nil (splitFrom_ne_nil [] cs), ih, beq_iff_eq.mp hc]
          simp
      · rw [ih]
        simp

theorem intercalate_splitAt (cs : List Char) : [sep].intercalate (splitAt sep cs) = cs :=
  intercalate_splitFrom [] cs

theorem splitAt_inj {cs ds : List Char} : splitAt sep cs = splitAt sep ds ↔ cs = ds := by
  constructor
  · intro h
    have hjoined := congrArg [sep].intercalate h
    rwa [intercalate_splitAt, intercalate_splitAt] at hjoined
  · intro h
    rw [h]

end

end JavaMetrics.Text
