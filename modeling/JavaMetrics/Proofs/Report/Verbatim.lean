import JavaMetrics.Proofs.Report.PlainFront
import JavaMetrics.Proofs.Text.Pieces
import Mathlib.Data.List.Flatten
import Mathlib.Data.List.Infix
import Mathlib.Data.List.TakeWhile

/-!
# When an error is printed as it is

The message of an error becomes a part of marked-up text without being escaped, so
what is printed need not be the message. It is never more than the message: whatever
the styles are, the printed characters are those of the message in their order, less
those of tags, some backslashes and the characters that are never printed
(`shown_piecesFrom_sublist`). A tag anywhere makes the printed text shorter
(`length_shown_piecesFrom_lt`), and so does every other exception but a tab, which is
replaced by blanks. Hence the lines of an error are those of its message exactly if
there is none, which is `Verbatim`.
-/

namespace JavaMetrics.Report

/-! ## Characters in front of a bracket -/

theorem unescape_sublist (cs : List Char) : (unescape cs).Sublist cs := by
  fun_induction unescape cs with
  | case1 rest ih => exact .cons _ (.cons_cons _ ih)
  | case2 c rest _ ih => exact .cons_cons _ ih
  | case3 => exact .slnil

theorem unescape_eq_self_iff (cs : List Char) : unescape cs = cs ↔ ¬['\\', '['] <:+: cs := by
  fun_induction unescape cs with
  | case1 rest ih =>
      have hescape : ['\\', '['] <:+: '\\' :: '[' :: rest := ⟨[], rest, rfl⟩
      simp [hescape]
  | case2 c rest hother ih =>
      have hfront : ¬['\\', '['] <+: c :: rest := by
        rintro ⟨after, heq⟩
        rw [List.cons_append, List.cons.injEq] at heq
        exact hother after heq.1.symm heq.2.symm
      rw [List.cons_inj_right, ih, List.infix_cons_iff, or_iff_right hfront]
  | case3 => simp

/-- A text is the backslashes at its front and the rest. -/
theorem eq_backslashes_append (cs : List Char) :
    cs = List.replicate (cs.takeWhile (· == '\\')).length '\\' ++
      cs.drop (cs.takeWhile (· == '\\')).length := by
  have hfront : cs.takeWhile (· == '\\') =
      List.replicate (cs.takeWhile (· == '\\')).length '\\' := by
    refine List.eq_replicate_iff.mpr ⟨rfl, fun c hmem => ?_⟩
    have hc := List.mem_takeWhile_imp hmem
    exact beq_iff_eq.mp hc
  rw [← hfront]
  exact (List.prefix_iff_eq_append.mp (List.takeWhile_prefix _)).symm

theorem tag?_eq_some {cs tag after : List Char} (h : tag? cs = some (tag, after)) :
    cs = '[' :: tag ++ ']' :: after := by
  unfold tag? at h
  split at h
  · next c rest =>
      split at h
      · dsimp only at h
        split at h
        · next hrest =>
            cases h
            rw [List.cons_append, List.cons_append, ← hrest, List.takeWhile_append_dropWhile]
        · cases h
      · cases h
  · cases h

/-! ## What pieces print -/

/-- What a piece prints, whatever styles are open. -/
def Piece.shown : Piece → List Char
  | .plain text => (unescape text).filter fun c => !isUnprinted c
  | .tag _ _ => []

theorem shown_plain_sublist (text : List Char) : (Piece.plain text).shown.Sublist text :=
  List.filter_sublist.trans (unescape_sublist text)

theorem shown_plain_eq_self_iff (text : List Char) : (Piece.plain text).shown = text ↔
    ¬['\\', '['] <:+: text ∧ ∀ c ∈ text, isUnprinted c = false := by
  rw [← unescape_eq_self_iff]
  constructor
  · intro h
    -- Neither step adds a character, so neither has left one out.
    have hkept : text.Sublist (unescape text) := by
      conv_lhs => rw [← h]
      exact List.filter_sublist
    have hunescape : unescape text = text := (unescape_sublist text).antisymm hkept
    rw [Piece.shown, hunescape, List.filter_eq_self] at h
    exact ⟨hunescape, fun c hmem => by simpa using h c hmem⟩
  · rintro ⟨hunescape, hprinted⟩
    rw [Piece.shown, hunescape, List.filter_eq_self]
    exact fun c hmem => by rw [hprinted c hmem]; rfl

/-- Pieces print what each of them shows, unless a closing tag has nothing to close. -/
theorem printed_cases (styles : List (List Char)) (ps : List Piece) :
    printed styles ps = .ok (ps.flatMap Piece.shown) ∨
      ∃ tag position, printed styles ps = .error (.strayClosingTag tag position) := by
  fun_induction printed styles ps with
  | case1 => exact .inl rfl
  | case2 styles text rest ih =>
      rcases ih with hok | ⟨tag, position, herror⟩
      · exact .inl (by rw [hok]; rfl)
      · exact .inr ⟨tag, position, by rw [herror]; rfl⟩
  | case3 => exact .inr ⟨_, _, rfl⟩
  | case4 _ _ _ _ _ _ _ ih => exact ih
  | case5 => exact .inr ⟨_, _, rfl⟩
  | case6 _ _ _ _ _ _ _ _ ih => exact ih
  | case7 _ _ _ _ _ ih => exact ih

/-- What a tag prints with the backslashes in front of it: half of them, and the tag itself if there
is one left over. -/
theorem shown_escapedTag_sublist (backslashes : Nat) (tag : List Char) (position : Nat) :
    ((escapedTag backslashes tag position).flatMap Piece.shown).Sublist
      (List.replicate (backslashes / 2) '\\' ++
        if backslashes % 2 = 1 then '[' :: tag ++ [']'] else []) := by
  have hfront : ((if backslashes / 2 = 0 then []
      else [Piece.plain (List.replicate (backslashes / 2) '\\')]).flatMap Piece.shown).Sublist
        (List.replicate (backslashes / 2) '\\') := by
    split
    · exact List.nil_sublist _
    · simpa using shown_plain_sublist _
  rw [escapedTag]
  split
  · rw [List.flatMap_append]
    exact hfront.append (by simpa using shown_plain_sublist ('[' :: tag ++ [']']))
  · rw [List.flatMap_append]
    exact hfront.append (List.nil_sublist _)

theorem length_shown_escapedTag_lt (backslashes : Nat) (tag : List Char) (position : Nat) :
    ((escapedTag backslashes tag position).flatMap Piece.shown).length <
      backslashes + tag.length + 2 := by
  have hle := (shown_escapedTag_sublist backslashes tag position).length_le
  rw [List.length_append, List.length_replicate] at hle
  split at hle
  · simp only [List.cons_append, List.length_cons, List.length_append, List.length_nil] at hle
    omega
  · rw [List.length_nil] at hle
    omega

/-- The piece that the plain text so far makes. -/
def runPiece (run : List Char) : List Piece :=
  if run.isEmpty then [] else [.plain run.reverse]

theorem shown_runPiece_sublist (run : List Char) :
    ((runPiece run).flatMap Piece.shown).Sublist run.reverse := by
  rw [runPiece]
  split
  · exact List.nil_sublist _
  · simpa using shown_plain_sublist run.reverse

/-- A step comes to a tag, perhaps behind backslashes, or there is none at its place and the
character there becomes plain text. -/
theorem piecesFrom_succ_cases (steps position : Nat) (run : List Char) (c : Char)
    (rest : List Char) :
    (∃ backslashes tagged tag after,
      tag? tagged = some (tag, after) ∧ c :: rest = List.replicate backslashes '\\' ++ tagged ∧
      piecesFrom (steps + 1) run position (c :: rest) =
        runPiece run ++ escapedTag backslashes tag position ++
          piecesFrom steps [] (position + backslashes + tag.length + 2) after) ∨
    (tag? (c :: rest) = none ∧
      piecesFrom (steps + 1) run position (c :: rest) =
        piecesFrom steps (c :: run) (position + 1) rest) := by
  rw [piecesFrom]
  dsimp only
  split
  · next tag after htag =>
      exact .inl ⟨_, _, tag, after, htag, eq_backslashes_append _, rfl⟩
  · next htag =>
      refine .inr ⟨?_, rfl⟩
      by_cases hc : c = '\\'
      · rw [hc]
        rfl
      · simpa [hc] using htag

/-- Nothing is printed but characters of the text, in their order. -/
theorem shown_piecesFrom_sublist (steps position : Nat) (run cs : List Char) :
    ((piecesFrom steps run position cs).flatMap Piece.shown).Sublist (run.reverse ++ cs) := by
  induction steps generalizing position run cs with
  | zero => simpa [piecesFrom] using shown_plain_sublist (run.reverse ++ cs)
  | succ steps ih =>
      cases cs with
      | nil =>
          rw [List.append_nil]
          exact shown_runPiece_sublist run
      | cons c rest =>
          rcases piecesFrom_succ_cases steps position run c rest with
            ⟨backslashes, tagged, tag, after, htag, hcs, heq⟩ | ⟨-, heq⟩
          · rw [heq, hcs, tag?_eq_some htag, List.flatMap_append, List.flatMap_append]
            have htail := ih (position + backslashes + tag.length + 2) [] after
            have htag : ((escapedTag backslashes tag position).flatMap Piece.shown).Sublist
                (List.replicate backslashes '\\' ++ ('[' :: tag ++ [']'])) := by
              refine (shown_escapedTag_sublist _ _ _).trans (.append ?_ ?_)
              · exact (List.replicate_sublist_replicate _).mpr (Nat.div_le_self _ _)
              · split
                · exact .refl _
                · exact List.nil_sublist _
            simpa using ((shown_runPiece_sublist run).append htag).append htail
          · rw [heq]
            simpa using ih (position + 1) (c :: run) rest

/-- A tag anywhere in a text makes what is printed shorter. -/
theorem length_shown_piecesFrom_lt {steps : Nat} {cs tagged : List Char} (position : Nat)
    (run : List Char) (hsteps : cs.length ≤ steps) (hsuffix : tagged <:+ cs)
    (htag : tag? tagged ≠ none) :
    ((piecesFrom steps run position cs).flatMap Piece.shown).length < run.length + cs.length := by
  induction steps generalizing position run cs with
  | zero =>
      obtain rfl := List.length_eq_zero_iff.mp (Nat.le_zero.mp hsteps)
      obtain rfl := List.suffix_nil.mp hsuffix
      exact absurd rfl htag
  | succ steps ih =>
      cases cs with
      | nil =>
          obtain rfl := List.suffix_nil.mp hsuffix
          exact absurd rfl htag
      | cons c rest =>
          rcases piecesFrom_succ_cases steps position run c rest with
            ⟨backslashes, found, tag, after, hfound, hcs, heq⟩ | ⟨hnone, heq⟩
          · have hrun := (shown_runPiece_sublist run).length_le
            have hlt := length_shown_escapedTag_lt backslashes tag position
            have htail := (shown_piecesFrom_sublist steps
              (position + backslashes + tag.length + 2) [] after).length_le
            rw [heq, hcs, tag?_eq_some hfound]
            simp only [List.flatMap_append, List.length_append, List.length_cons,
              List.length_replicate, List.length_reverse, List.length_nil] at hrun htail ⊢
            omega
          · have hrest : tagged <:+ rest := by
              rcases List.suffix_cons_iff.mp hsuffix with rfl | hrest
              · exact absurd hnone htag
              · exact hrest
            have hlt := ih (position + 1) (c :: run) (Nat.le_of_succ_le_succ hsteps) hrest
            rw [heq]
            rw [List.length_cons] at hlt ⊢
            omega

/-- A text without tags is one piece. -/
theorem piecesFrom_of_untagged {run cs : List Char} (steps position : Nat) (hrun : run ≠ [])
    (h : ∀ tagged, tagged <:+ cs → tag? tagged = none) :
    piecesFrom steps run position cs = [.plain (run.reverse ++ cs)] := by
  induction steps generalizing position run cs with
  | zero => rfl
  | succ steps ih =>
      cases cs with
      | nil => simp [piecesFrom, hrun]
      | cons c rest =>
          rcases piecesFrom_succ_cases steps position run c rest with
            ⟨backslashes, found, tag, after, hfound, hcs, -⟩ | ⟨-, heq⟩
          · rw [h found ⟨_, hcs.symm⟩] at hfound
            cases hfound
          · rw [heq, ih (position + 1) (List.cons_ne_nil c run) fun tagged hsuffix =>
              h tagged (hsuffix.trans (List.suffix_cons c rest))]
            simp

/-! ## Tabs -/

theorem expandTabs_eq_self {line : List Char} (h : '\t' ∉ line) (column : Nat) :
    expandTabs column line = line := by
  fun_induction expandTabs column line with
  | case1 => rfl
  | case2 => simp at h
  | case3 column c rest _ ih => rw [ih fun hmem => h (List.mem_cons_of_mem c hmem)]

theorem tab_not_mem_expandTabs (column : Nat) (line : List Char) :
    '\t' ∉ expandTabs column line := by
  fun_induction expandTabs column line with
  | case1 => simp
  | case2 column rest width ih => simp [ih]
  | case3 column c rest hother ih =>
      rw [List.mem_cons, not_or]
      exact ⟨fun heq => hother heq.symm, ih⟩

theorem tab_mem_splitAt_iff {cs : List Char} :
    (∃ line ∈ Text.splitAt '\n' cs, '\t' ∈ line) ↔ '\t' ∈ cs := by
  rw [← List.mem_flatten, Text.flatten_splitAt, List.mem_filter]
  simp

/-- The lines that are printed for a text that has lost characters are those of the whole text only
if it has lost none, and there are no tabs. -/
theorem unwrapped_eq_iff {text whole : List Char} (hsublist : text.Sublist whole) :
    unwrapped text = (Text.splitAt '\n' whole).map String.ofList ↔
      text = whole ∧ '\t' ∉ whole := by
  have hlines : unwrapped text = (Text.splitAt '\n' whole).map String.ofList ↔
      (Text.splitAt '\n' text).map (expandTabs 0) = Text.splitAt '\n' whole := by
    have hmap : Function.Injective (List.map String.ofList) :=
      List.map_injective_iff.mpr fun _ _ => String.ofList_injective
    rw [← hmap.eq_iff, List.map_map]
    exact Iff.rfl
  have hexpand (htab : '\t' ∉ text) :
      (Text.splitAt '\n' text).map (expandTabs 0) = Text.splitAt '\n' text := by
    refine (List.map_congr_left fun line hmem => ?_).trans (List.map_id _)
    exact expandTabs_eq_self (fun hmem' => htab (tab_mem_splitAt_iff.mp ⟨line, hmem, hmem'⟩)) 0
  rw [hlines]
  constructor
  · intro h
    have htab : '\t' ∉ whole := by
      rw [← tab_mem_splitAt_iff, ← h]
      rintro ⟨_, hmem, htab⟩
      obtain ⟨line, -, rfl⟩ := List.mem_map.mp hmem
      exact tab_not_mem_expandTabs 0 line htab
    rw [hexpand fun hmem => htab (hsublist.subset hmem)] at h
    exact ⟨Text.splitAt_inj.mp h, htab⟩
  · rintro ⟨rfl, htab⟩
    exact hexpand htab

/-! ## Errors -/

/-- The front of an error opens a style and closes it again. -/
theorem pieces_error (message : List Char) :
    pieces ("[red]Error:[/red] ".toList ++ message) =
      .tag "red".toList 0 :: .plain "Error:".toList :: .tag "/red".toList 11 ::
        piecesFrom (message.length + 10) [' '] 18 message := by
  have hlength : ("[red]Error:[/red] ".toList ++ message).length + 1 = message.length + 19 := by
    simp
  rw [pieces, hlength]
  simp [piecesFrom, tag?, isTagStart, escapedTag]

theorem printed_error (ps : List Piece) :
    printed [] (.tag "red".toList 0 :: .plain "Error:".toList :: .tag "/red".toList 11 :: ps) =
      (printed [] ps).map ("Error:".toList ++ ·) := by
  have hopened (rest : List Piece) : printed [] (.tag "red".toList 0 :: rest) =
      printed [styleName "red".toList] rest := by
    simp [printed]
  have hclosed : printed [styleName "red".toList] (.tag "/red".toList 11 :: ps) =
      printed [] ps := by
    simp [printed, closeStyle]
  rw [hopened, printed, hclosed]
  cases printed [] ps <;> rfl

/-- What the message of an error prints, with the blank in front of it. -/
def shownMessage (message : List Char) : List Char :=
  (piecesFrom (message.length + 10) [' '] 18 message).flatMap Piece.shown

theorem plainText_error (message : String) :
    plainText ("[red]Error:[/red] " ++ message) =
        .ok ("Error:".toList ++ shownMessage message.toList) ∨
      ∃ tag position, plainText ("[red]Error:[/red] " ++ message) =
        .error (.strayClosingTag tag position) := by
  rw [plainText, String.toList_append, pieces_error, printed_error]
  rcases printed_cases [] (piecesFrom (message.toList.length + 10) [' '] 18 message.toList) with
    hok | ⟨tag, position, herror⟩
  · exact .inl (by rw [hok]; rfl)
  · exact .inr ⟨tag, position, by rw [herror]; rfl⟩

theorem shownMessage_sublist (message : List Char) :
    (shownMessage message).Sublist (' ' :: message) :=
  shown_piecesFrom_sublist _ _ [' '] message

section

variable {message : List Char} (huntagged : ∀ tagged ∈ message.tails, tag? tagged = none)

include huntagged

theorem piecesFrom_message : piecesFrom (message.length + 10) [' '] 18 message =
    [.plain (' ' :: message)] :=
  piecesFrom_of_untagged _ _ (List.cons_ne_nil _ _) fun tagged hsuffix =>
    huntagged tagged ((List.mem_tails _ _).mpr hsuffix)

theorem shownMessage_of_untagged :
    shownMessage message = (Piece.plain (' ' :: message)).shown := by
  rw [shownMessage, piecesFrom_message huntagged, List.flatMap_singleton]

end

theorem shownMessage_eq_iff (message : List Char) : shownMessage message = ' ' :: message ↔
    (∀ tagged ∈ message.tails, tag? tagged = none) ∧ ¬['\\', '['] <:+: message ∧
      ∀ c ∈ message, isUnprinted c = false := by
  have hblank : (Piece.plain (' ' :: message)).shown = ' ' :: message ↔
      ¬['\\', '['] <:+: message ∧ ∀ c ∈ message, isUnprinted c = false := by
    rw [shown_plain_eq_self_iff, List.infix_cons_iff, List.forall_mem_cons]
    simp [isUnprinted]
  rw [← hblank]
  constructor
  · intro h
    have huntagged : ∀ tagged ∈ message.tails, tag? tagged = none := by
      intro tagged hmem
      by_contra htag
      have hlt := length_shown_piecesFrom_lt 18 [' '] (Nat.le_add_right message.length 10)
        ((List.mem_tails _ _).mp hmem) htag
      rw [← shownMessage, h, List.length_cons, List.length_singleton, Nat.add_comm] at hlt
      exact absurd hlt (Nat.lt_irrefl _)
    exact ⟨huntagged, shownMessage_of_untagged huntagged ▸ h⟩
  · rintro ⟨huntagged, h⟩
    rw [shownMessage_of_untagged huntagged, h]

/-- Is the message of an error printed as it is? -/
structure Verbatim (message : String) : Prop where
  /-- No tag begins anywhere. -/
  untagged : ∀ tagged ∈ message.toList.tails, tag? tagged = none
  /-- No backslash stands before a bracket. -/
  unescaped : ¬['\\', '['] <:+: message.toList
  /-- No character is left out or replaced by blanks. -/
  printable : ∀ c ∈ message.toList, isUnprinted c = false ∧ c ≠ '\t'

instance (message : String) : Decidable (Verbatim message) :=
  decidable_of_iff
    ((∀ tagged ∈ message.toList.tails, tag? tagged = none) ∧ ¬['\\', '['] <:+: message.toList ∧
      (message.toList.all fun c => !isUnprinted c && c != '\t') = true) <| by
    constructor
    · rintro ⟨huntagged, hunescaped, hprintable⟩
      exact ⟨huntagged, hunescaped, by simpa using hprintable⟩
    · intro h
      exact ⟨h.untagged, h.unescaped, by simpa using h.printable⟩

/-- A message that is printed as it is closes no styles. -/
theorem Verbatim.plainText_error {message : String} (h : Verbatim message) :
    plainText ("[red]Error:[/red] " ++ message) =
      .ok ("Error:".toList ++ shownMessage message.toList) := by
  rw [plainText, String.toList_append, pieces_error, printed_error,
    piecesFrom_message h.untagged, shownMessage_of_untagged h.untagged]
  simp [printed, Piece.shown, Except.map]

theorem unwrapped_error_eq_iff (message : String) :
    unwrapped ("Error:".toList ++ shownMessage message.toList) =
      Text.lines ("Error: " ++ message) ↔ Verbatim message := by
  have hwhole : ("Error: " ++ message).toList = "Error:".toList ++ ' ' :: message.toList := by
    rw [String.toList_append]
    rfl
  have hsublist : ("Error:".toList ++ shownMessage message.toList).Sublist
      ("Error: " ++ message).toList := by
    rw [hwhole]
    exact (shownMessage_sublist _).append_left _
  rw [Text.lines, unwrapped_eq_iff hsublist, hwhole, List.append_cancel_left_eq,
    shownMessage_eq_iff]
  constructor
  · rintro ⟨⟨huntagged, hunescaped, hprintable⟩, htab⟩
    refine ⟨huntagged, hunescaped, fun c hmem => ⟨hprintable c hmem, ?_⟩⟩
    rintro rfl
    simp [hmem] at htab
  · intro h
    refine ⟨⟨h.untagged, h.unescaped, fun c hmem => (h.printable c hmem).1⟩, ?_⟩
    simpa using fun hmem => (h.printable _ hmem).2 rfl

end JavaMetrics.Report
