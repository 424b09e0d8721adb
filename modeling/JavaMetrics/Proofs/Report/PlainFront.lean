import JavaMetrics.Report.Markup

/-!
# What stands in front of mark-up is printed

A path may hold brackets, and they are taken for mark-up when the path is printed as
part of a message. What the message says before the path is not affected by that:
`plainText_front` says that characters without any meaning in mark-up, at the front of
a text, are printed as they are whatever comes after them.
-/

namespace JavaMetrics.Report

/-- Is the character printed, and does it have no meaning in mark-up? -/
def isOrdinary (c : Char) : Bool :=
  c != '[' && c != '\\' && !isUnprinted c

theorem piecesFrom_cons {c : Char} (h : isOrdinary c = true) (steps position : Nat)
    (run rest : List Char) :
    piecesFrom (steps + 1) run position (c :: rest) =
      piecesFrom steps (c :: run) (position + 1) rest := by
  simp only [isOrdinary, Bool.and_eq_true, bne_iff_ne, ne_eq] at h
  obtain ⟨⟨hbracket, hbackslash⟩, -⟩ := h
  have hfront : (c :: rest).takeWhile (· == '\\') = [] := by simp [hbackslash]
  have htag : tag? (c :: rest) = none := by
    unfold tag?
    split
    · next heq => exact absurd (List.cons.inj heq).1 hbracket
    · rfl
  rw [piecesFrom, hfront, List.length_nil, List.drop_zero, htag]

theorem piecesFrom_front {front : List Char} (h : ∀ c ∈ front, isOrdinary c = true)
    (steps position : Nat) (run rest : List Char) :
    piecesFrom (front.length + steps) run position (front ++ rest) =
      piecesFrom steps (front.reverse ++ run) (position + front.length) rest := by
  induction front generalizing position run with
  | nil => rw [List.length_nil, Nat.zero_add]; rfl
  | cons c front ih =>
      rw [List.length_cons, Nat.add_right_comm, List.cons_append,
        piecesFrom_cons (h c List.mem_cons_self),
        ih fun d hmem => h d (List.mem_cons_of_mem _ hmem)]
      simp [Nat.add_assoc, Nat.add_comm 1]

/-- The plain text so far begins the first piece. -/
theorem exists_piecesFrom {run : List Char} (hrun : run ≠ []) (steps position : Nat)
    (cs : List Char) : ∃ more rest,
      piecesFrom steps run position cs = .plain (run.reverse ++ more) :: rest := by
  induction steps generalizing run position cs with
  | zero => exact ⟨cs, [], rfl⟩
  | succ steps ih =>
      cases cs with
      | nil => exact ⟨[], [], by simp [piecesFrom, hrun]⟩
      | cons c rest =>
          rw [piecesFrom]
          dsimp only
          split
          · exact ⟨[], _, by simp [hrun]; rfl⟩
          · obtain ⟨more, pieces, heq⟩ := ih (List.cons_ne_nil c run) (position + 1) rest
            exact ⟨c :: more, pieces, by simpa using heq⟩

theorem unescape_front {front : List Char} (h : ∀ c ∈ front, isOrdinary c = true)
    (rest : List Char) : unescape (front ++ rest) = front ++ unescape rest := by
  induction front with
  | nil => rfl
  | cons c front ih =>
      have hc := h c List.mem_cons_self
      simp only [isOrdinary, Bool.and_eq_true, bne_iff_ne, ne_eq] at hc
      rw [List.cons_append, unescape.eq_2, ih fun d hmem => h d (List.mem_cons_of_mem _ hmem)]
      · rfl
      · exact fun _ heq _ => hc.1.2 heq

/-- Ordinary characters at the front of a text are printed as they are. -/
theorem plainText_front {markup : String} {front rest text : List Char}
    (hmarkup : markup.toList = front ++ rest) (h : ∀ c ∈ front, isOrdinary c = true)
    (htext : plainText markup = .ok text) : front <+: text := by
  by_cases hempty : front = []
  · rw [hempty]
    exact List.nil_prefix
  · have hpieces := piecesFrom_front h (rest.length + 1) 0 [] rest
    obtain ⟨more, tail, hfirst⟩ := exists_piecesFrom (List.reverse_ne_nil_iff.mpr hempty)
      (rest.length + 1) (0 + front.length) rest
    rw [List.append_nil, hfirst, List.reverse_reverse] at hpieces
    rw [plainText, pieces, hmarkup, List.length_append, Nat.add_assoc, hpieces, printed,
      unescape_front h, List.filter_append] at htext
    have hkept : front.filter (fun c => !isUnprinted c) = front := by
      refine List.filter_eq_self.mpr fun c hmem => ?_
      have hc := h c hmem
      simp only [isOrdinary, Bool.and_eq_true] at hc
      exact hc.2
    rw [hkept] at htext
    cases hprinted : printed [] tail with
    | error failure =>
        rw [hprinted] at htext
        cases htext
    | ok after =>
        rw [hprinted] at htext
        cases htext
        rw [List.append_assoc]
        exact List.prefix_append _ _

theorem toNat_of_isDigit {c : Char} (h : c.isDigit = true) : 48 ≤ c.toNat ∧ c.toNat ≤ 57 := by
  simpa [Char.isDigit, UInt32.le_iff_toNat_le] using h

theorem isOrdinary_of_isDigit {c : Char} (h : c.isDigit = true) : isOrdinary c = true := by
  have hrange := toNat_of_isDigit h
  have hbracket : c ≠ '[' := by
    rintro rfl
    simp at hrange
  have hbackslash : c ≠ '\\' := by
    rintro rfl
    simp at hrange
  have hprinted : isUnprinted c = false := by
    simp only [isUnprinted, Bool.or_eq_false_iff, beq_eq_false_iff_ne, Bool.and_eq_false_iff,
      decide_eq_false_iff_not]
    omega
  simp [isOrdinary, hbracket, hbackslash, hprinted]

/-- The characters of a number are digits. -/
theorem isDigit_of_mem_toString {count : Nat} {c : Char} (h : c ∈ (toString count).toList) :
    c.isDigit = true := by
  rw [Nat.toString_eq_repr, Nat.toList_repr] at h
  exact Nat.isDigit_of_mem_toDigits (by decide) (by decide) h

/-- The message about the table says how many records it has, whatever its path is. -/
theorem exported_front {count : Nat} {path : String} {text : List Char}
    (h : plainText s!"Exported {count} class metrics to: {path}" = .ok text) :
    s!"Exported {count} class metrics to: ".toList <+: text := by
  have hdigits : ∀ c ∈ (toString count).toList, isOrdinary c = true := fun c hmem =>
    isOrdinary_of_isDigit (isDigit_of_mem_toString hmem)
  have hsplit : s!"Exported {count} class metrics to: ".toList =
      "Exported ".toList ++ (toString count).toList ++ " class metrics to: ".toList := by
    rw [String.toList_append, String.toList_append]
    rfl
  refine @plainText_front _ _ path.toList _ ?_ ?_ h
  · rw [String.toList_append]
    rfl
  · rw [hsplit]
    intro c hmem
    simp only [List.mem_append] at hmem
    rcases hmem with (hmem | hmem) | hmem
    · exact List.all_eq_true.mp (by decide : "Exported ".toList.all isOrdinary = true) c hmem
    · exact hdigits c hmem
    · exact List.all_eq_true.mp
        (by decide : " class metrics to: ".toList.all isOrdinary = true) c hmem

end JavaMetrics.Report
