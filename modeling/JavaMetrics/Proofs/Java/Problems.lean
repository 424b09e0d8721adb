import JavaMetrics.Java.CompilationUnit
import JavaMetrics.Proofs.Syntax.Descent
import JavaMetrics.Proofs.Syntax.LineStarts
import Mathlib.Data.List.TakeWhile

/-!
# The problems of a source

A problem stands for a spot of the tree at which something is wrong. The walk that
collects them does not go below text that could not be read, unless that is the whole
source, and it is not taken at all when the tree has nothing wrong in it. Neither loses
anything: above every faulty spot, or at it, is one that is reported
(`exists_reported`), so that no problem is reported exactly if nothing is wrong.
-/

namespace JavaMetrics

/-! ## Trees with something wrong in them -/

namespace Node

theorem anyFault_eq (nodes : List Node) : anyFault nodes = nodes.any hasFault := by
  induction nodes with
  | nil => rfl
  | cons node rest ih => rw [anyFault, ih, List.any_cons]

theorem hasFault_eq (node : Node) :
    node.hasFault = (node.isFaulty || node.children.any hasFault) := by
  cases node
  rw [hasFault, anyFault_eq]

theorem hasFault_of_at? {root node : Node} {way : List Nat} (hat : root.at? way = some node)
    (h : node.isFaulty = true) : root.hasFault = true := by
  induction way generalizing root with
  | nil =>
      obtain rfl := Option.some.inj hat
      rw [hasFault_eq, h, Bool.true_or]
  | cons i way ih =>
      rw [at?] at hat
      split at hat
      · next child hchild =>
          have hany : root.children.any hasFault = true :=
            List.any_eq_true.mpr ⟨child, List.mem_of_getElem? hchild, ih hat⟩
          rw [hasFault_eq, hany, Bool.or_true]
      · cases hat

theorem exists_faulty_of_hasFault (root : Node) (h : root.hasFault = true) :
    ∃ spot ∈ root.spots, spot.node.isFaulty = true := by
  rw [hasFault_eq, Bool.or_eq_true] at h
  rcases h with hroot | hbelow
  · exact ⟨Spot.top root, mem_spots.mpr rfl, hroot⟩
  · obtain ⟨child, hmem, hchild⟩ := List.any_eq_true.mp hbelow
    obtain ⟨spot, hspot, hfaulty⟩ := exists_faulty_of_hasFault child hchild
    obtain ⟨i, hi⟩ := List.getElem?_of_mem hmem
    refine ⟨⟨i :: spot.way, spot.node⟩, ?_, hfaulty⟩
    rw [mem_spots, at?_cons hi]
    exact mem_spots.mp hspot
termination_by sizeOf root
decreasing_by
  have := List.sizeOf_lt_of_mem hmem
  cases root
  simp only [mk.sizeOf_spec] at *
  omega

/-! ## The spots that are reported -/

/-- The spots of a tree at which a problem is reported. -/
def reported (root : Node) : List Spot :=
  (root.walkSpots isError).filter (·.node.isFaulty)

theorem mem_reported {root : Node} {spot : Spot} :
    spot ∈ root.reported ↔ spot ∈ root.spots ∧ spot.node.isFaulty = true ∧
      ∀ upper ∈ root.spots, upper.Above spot → upper.way ≠ [] → upper.node.isError = false := by
  rw [reported, List.mem_filter, mem_walkSpots, and_assoc]
  exact and_congr_right fun _ => And.comm

/-- What lies below text that could not be read is covered by the report on that text. -/
theorem exists_reported {root : Node} {spot : Spot} (hspot : spot ∈ root.spots)
    (h : spot.node.isFaulty = true) : ∃ shown ∈ root.reported, shown.way <+: spot.way := by
  -- of the unread texts above the spot, the one nearest to the root is reported
  induction hlength : spot.way.length using Nat.strongRecOn generalizing spot with
  | ind n ih =>
      by_cases hopen : ∀ upper ∈ root.spots, upper.Above spot → upper.way ≠ [] →
          upper.node.isError = false
      · exact ⟨spot, mem_reported.mpr ⟨hspot, h, hopen⟩, List.prefix_rfl⟩
      · simp only [not_forall, Bool.not_eq_false] at hopen
        obtain ⟨upper, hupper, habove, -, herror⟩ := hopen
        have hshorter : upper.way.length < n := by
          rw [← hlength]
          refine Nat.lt_of_le_of_ne habove.1.length_le fun heq => ?_
          exact habove.2 (habove.1.eq_of_length heq)
        have hfaulty : upper.node.isFaulty = true := by rw [isFaulty, herror, Bool.true_or]
        obtain ⟨shown, hshown, hle⟩ := ih _ hshorter hupper hfaulty rfl
        exact ⟨shown, hshown, hle.trans habove.1⟩

theorem hasFault_iff {root : Node} : root.hasFault = true ↔ root.reported ≠ [] := by
  constructor
  · intro h
    obtain ⟨spot, hspot, hfaulty⟩ := exists_faulty_of_hasFault root h
    obtain ⟨shown, hshown, -⟩ := exists_reported hspot hfaulty
    exact List.ne_nil_of_mem hshown
  · intro h
    obtain ⟨spot, hmem⟩ := List.exists_mem_of_ne_nil _ h
    obtain ⟨hspot, hfaulty, -⟩ := mem_reported.mp hmem
    exact hasFault_of_at? (mem_spots.mp hspot) hfaulty

theorem reported_eq_nil_iff {root : Node} :
    root.reported = [] ↔ ∀ node ∈ root.descendants, node.isFaulty = false := by
  rw [← map_node_spots, List.forall_mem_map]
  constructor
  · intro hnone spot hspot
    by_contra hfaulty
    obtain ⟨shown, hshown, -⟩ := exists_reported hspot (Bool.not_eq_false _ ▸ hfaulty)
    rw [hnone] at hshown
    cases hshown
  · intro hsound
    refine List.eq_nil_iff_forall_not_mem.mpr fun spot hmem => ?_
    obtain ⟨hspot, hfaulty, -⟩ := mem_reported.mp hmem
    rw [hsound spot hspot] at hfaulty
    cases hfaulty

/-- The walk is left out only where it finds nothing. -/
theorem problems_eq (code : List UInt8) (root : Node) :
    root.problems code = root.reported.map fun spot => Problem.ofNode code spot.node := by
  rw [problems]
  split
  · rw [← map_node_walkSpots, ← Spot.map_node_filter, List.map_map]
    rfl
  · next hsound =>
      have hnone : root.reported = [] := by_contra fun hne => hsound (hasFault_iff.mpr hne)
      rw [hnone, List.map_nil]

end Node

/-! ## Columns -/

/-- The bytes before an offset, cut behind the last newline. -/
theorem exists_lineFront (code : List UInt8) (offset : Nat) :
    ∃ front rest, code.take offset = front ++ rest ∧ newline ∉ rest ∧
      (front = [] ∨ front.getLast? = some newline) ∧
      (position code offset).2 = rest.length := by
  refine ⟨((code.take offset).reverse.dropWhile (· != newline)).reverse,
    ((code.take offset).reverse.takeWhile (· != newline)).reverse, ?_, ?_, ?_, ?_⟩
  · rw [← List.reverse_append, List.takeWhile_append_dropWhile, List.reverse_reverse]
  · rw [List.mem_reverse]
    intro hmem
    have := List.mem_takeWhile_imp hmem
    simp at this
  · rw [List.getLast?_reverse, List.reverse_eq_nil_iff]
    have hhead := List.head?_dropWhile_not (· != newline) (code.take offset).reverse
    cases hrest : (code.take offset).reverse.dropWhile (· != newline) with
    | nil => exact .inl rfl
    | cons byte rest =>
        rw [hrest] at hhead
        exact .inr (by simpa using hhead)
  · rw [List.length_reverse]
    rfl

/-! ## Snippets -/

theorem not_mem_runsFrom {p : Char → Bool} {run cs : List Char} (hrun : ∀ c ∈ run, p c = false) :
    ∀ piece ∈ Text.runsFrom p run cs, ∀ c ∈ piece, p c = false := by
  induction cs generalizing run with
  | nil =>
      rw [Text.runsFrom]
      split
      · simp
      · simpa using hrun
  | cons c cs ih =>
      rw [Text.runsFrom]
      split
      · split
        · exact ih (by simp)
        · rw [List.forall_mem_cons]
          exact ⟨by simpa using hrun, ih (by simp)⟩
      · next hc =>
          refine ih ?_
          rw [List.forall_mem_cons]
          exact ⟨Bool.eq_false_iff.mpr hc, hrun⟩

theorem mem_intercalate {c : Char} {sep : List Char} {pieces : List (List Char)}
    (h : c ∈ sep.intercalate pieces) : c ∈ sep ∨ ∃ piece ∈ pieces, c ∈ piece := by
  induction pieces with
  | nil => cases h
  | cons piece rest ih =>
      by_cases hrest : rest = []
      · rw [hrest, List.intercalate_singleton] at h
        exact .inr ⟨piece, List.mem_cons_self, h⟩
      · rw [List.intercalate_cons_of_ne_nil hrest, List.mem_append, List.mem_append] at h
        rcases h with (hpiece | hsep) | hlater
        · exact .inr ⟨piece, List.mem_cons_self, hpiece⟩
        · exact .inl hsep
        · rcases ih hlater with hsep | ⟨other, hmem, hother⟩
          · exact .inl hsep
          · exact .inr ⟨other, List.mem_cons_of_mem _ hmem, hother⟩

theorem Problem.length_snippet_le (text : String) :
    (Problem.snippet text).length ≤ Problem.snippetLength := by
  rw [Problem.snippet]
  split
  · next hlong =>
      have htake := List.length_take_of_le (Nat.le_of_lt (Nat.lt_of_le_of_lt
        (Nat.sub_le Problem.snippetLength 3) hlong))
      rw [String.length_append, String.length_ofList, htake]
      decide
  · next hshort =>
      rw [String.length_ofList]
      exact Nat.le_of_not_lt hshort

/-- Of all white space only plain spaces are left. -/
theorem Problem.blank_of_mem_snippet {text : String} {c : Char}
    (hmem : c ∈ (Problem.snippet text).toList) (hblank : Text.isBlank c = true) : c = ' ' := by
  have hwords : c ∈ " ".toList.intercalate (Text.words text.toList) → c = ' ' := by
    intro hword
    rcases mem_intercalate hword with hsep | ⟨word, hword, hc⟩
    · exact List.mem_singleton.mp hsep
    · have hno := not_mem_runsFrom (by simp) word hword c hc
      rw [hblank] at hno
      cases hno
  rw [Problem.snippet] at hmem
  split at hmem
  · rw [String.toList_append, List.mem_append, String.toList_ofList] at hmem
    rcases hmem with hfront | hdots
    · exact hwords (List.mem_of_mem_take hfront)
    · obtain rfl : c = '.' := by simpa using hdots
      cases hblank
  · rw [String.toList_ofList] at hmem
    exact hwords hmem

namespace Java

/-- How the problems of a unit and its tree belong together. -/
structure ProblemAccount (unit : CompilationUnit) (shown : List Spot) : Prop where
  /-- There is one problem for each of the spots. -/
  listed : unit.problems = shown.map fun spot => Problem.ofNode unit.code spot.node
  inPreorder : shown.Pairwise Spot.Precedes
  distinct : (shown.map (·.way)).Nodup
  /-- The spots are those at which something is wrong and that do not lie below unread text, the
  whole source apart. -/
  mem_iff : ∀ spot, spot ∈ shown ↔
    spot ∈ unit.root.spots ∧ (spot.node.isError = true ∨ spot.node.missing = true) ∧
      ∀ upper ∈ unit.root.spots, upper.Above spot → upper.way ≠ [] → upper.node.isError = false
  empty_iff : unit.problems = [] ↔
    ∀ node ∈ unit.root.descendants, node.isError = false ∧ node.missing = false
  /-- Looking for faults first leaves out no problem, and is never in vain. -/
  shortcut : unit.root.hasFault = true ↔ unit.problems ≠ []
  line : ∀ spot ∈ shown,
    (Problem.ofNode unit.code spot.node).line = unit.lineOf spot.node.start
  /-- The column counts the bytes behind the last newline. -/
  column : ∀ spot ∈ shown, ∃ front rest, unit.code.take spot.node.start = front ++ rest ∧
    newline ∉ rest ∧ (front = [] ∨ front.getLast? = some newline) ∧
    (Problem.ofNode unit.code spot.node).column = 1 + rest.length
  snippet : ∀ spot ∈ shown, spot.node.isError = true → ∃ excerpt : String,
    (Problem.ofNode unit.code spot.node).message = "Syntax error near '" ++ excerpt ++ "'" ∧
    excerpt.length ≤ 40 ∧ ∀ c ∈ excerpt.toList, Text.isBlank c = true → c = ' '

/-- The problems of a source are the faulty nodes of its tree that are not below unread text. -/
theorem problems_are_outermost_faults (unit : CompilationUnit) :
    ∃ shown, ProblemAccount unit shown := by
  refine ⟨unit.root.reported, ?_⟩
  have hlisted := unit.root.problems_eq unit.code
  have hordered : unit.root.reported.Pairwise Spot.Precedes :=
    (unit.root.pairwise_precedes_walkSpots Node.isError).sublist List.filter_sublist
  refine ⟨hlisted, hordered, ?_, ?_, ?_, ?_, ?_, ?_, ?_⟩
  · exact List.pairwise_map.mpr (hordered.imp Spot.Precedes.way_ne)
  · intro spot
    rw [Node.mem_reported, Node.isFaulty, Bool.or_eq_true]
  · rw [CompilationUnit.problems, hlisted, List.map_eq_nil_iff, Node.reported_eq_nil_iff]
    simp only [Node.isFaulty, Bool.or_eq_false_iff]
  · rw [Node.hasFault_iff, CompilationUnit.problems, hlisted, ne_eq, ne_eq, List.map_eq_nil_iff]
  · intro spot _
    rw [CompilationUnit.lineOf, ← position_line]
    rfl
  · intro spot _
    obtain ⟨front, rest, htake, hrest, hfront, hcolumn⟩ :=
      exists_lineFront unit.code spot.node.start
    refine ⟨front, rest, htake, hrest, hfront, ?_⟩
    rw [← hcolumn, Int.add_comm]
    rfl
  · intro spot _ herror
    refine ⟨Problem.snippet (spot.node.text unit.code), ?_, Problem.length_snippet_le _,
      fun c => Problem.blank_of_mem_snippet⟩
    simp only [Problem.ofNode, Problem.describe, herror, if_true]
    rfl

/-- A source that could not be read at all, with unread text in it and two signs missing. -/
def unreadSource : CompilationUnit :=
  .ofTree "A.java" "a\nb"
    { kind := "ERROR", start := 0, stop := 3, children := [
      { kind := "ERROR", start := 0, stop := 1, children := [
        { kind := ";", missing := true, start := 1, stop := 1 }] },
      { kind := ";", missing := true, start := 3, stop := 3 }] }

/-- The sign that is missing in the unread text below the root is not reported. -/
theorem problems_of_unread_source :
    unreadSource.problems.map (fun problem => (problem.line, problem.column)) =
        [(1, 1), (1, 1), (2, 2)] ∧
      ∃ shown, ProblemAccount unreadSource shown ∧ shown.length = 3 := by
  obtain ⟨shown, haccount⟩ := problems_are_outermost_faults unreadSource
  have hlength : unreadSource.problems.length = 3 := by decide +kernel
  rw [haccount.listed, List.length_map] at hlength
  exact ⟨by decide +kernel, shown, haccount, hlength⟩

end Java

end JavaMetrics
