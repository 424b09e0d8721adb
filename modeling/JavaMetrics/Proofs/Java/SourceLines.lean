import JavaMetrics.Metrics.Aggregate
import JavaMetrics.Proofs.Java.Spans
import JavaMetrics.Proofs.Syntax.LineStarts
import JavaMetrics.Proofs.Text.Pieces

/-!
# The lines of a source

A unit has its lines as texts, and offsets into its bytes. The two fit together
because the byte that ends a line is found in UTF-8 only where the text has a line
break: no byte of a longer character is below 128 (`newline_mem_encode`). So the bytes
of a source are the bytes of its lines with a newline between any two of them
(`encode_eq_joinBlocks`), and the line of an offset is the one on whose bytes it lies.

The line count of a type looks at the lines from its first byte to its last one. They
are lines of the source if the bytes are bytes of the source, so that the count never
has to move the ends of its range (`Encoded.lineRange_spec`).
-/

namespace JavaMetrics.Java

open Metrics (typeLoc Loc.count Loc.range Loc.countRange)

/-! ## Newlines in UTF-8 -/

theorem newline_mem_utf8EncodeChar {c : Char} :
    newline ∈ String.utf8EncodeChar c ↔ c = '\n' := by
  constructor
  · intro hmem
    -- a byte of a character outside of ASCII is 128 or more
    have hbyte : ∀ n, 128 ≤ n → n < 256 → newline ≠ UInt8.ofNat n := by
      intro n hlow hhigh heq
      have hvalue := congrArg UInt8.toNat heq
      rw [UInt8.toNat_ofNat_of_lt' hhigh] at hvalue
      simp only [newline, UInt8.toNat_ofNat] at hvalue
      omega
    have hbound := c.valid
    rw [String.utf8EncodeChar] at hmem
    split at hmem
    · next hascii =>
        have heq := congrArg UInt8.toNat (List.mem_singleton.mp hmem)
        rw [UInt8.toNat_ofNat_of_lt' (Nat.lt_of_le_of_lt hascii (by decide))] at heq
        exact Char.ext (UInt32.toNat_inj.mp heq.symm)
    · exfalso
      split at hmem
      · simp only [List.mem_cons, List.not_mem_nil, or_false] at hmem
        rcases hmem with heq | heq <;> exact hbyte _ (by omega) (by omega) heq
      · split at hmem
        · simp only [List.mem_cons, List.not_mem_nil, or_false] at hmem
          rcases hmem with heq | heq | heq <;> exact hbyte _ (by omega) (by omega) heq
        · simp only [List.mem_cons, List.not_mem_nil, or_false] at hmem
          rcases hmem with heq | heq | heq | heq <;> exact hbyte _ (by omega) (by omega) heq
  · rintro rfl
    decide

theorem newline_mem_encode {cs : List Char} : newline ∈ Text.Utf8.encode cs ↔ '\n' ∈ cs := by
  simp [Text.Utf8.encode, newline_mem_utf8EncodeChar]

/-! ## Lines as bytes -/

/-- The bytes of some lines. -/
def lineBytes (lines : List String) : List (List UInt8) :=
  lines.map fun line => Text.Utf8.encode line.toList

theorem encode_splitFrom (piece cs : List Char) :
    Text.Utf8.encode (piece.reverse ++ cs) =
      joinBlocks ((Text.splitFrom '\n' piece cs).map Text.Utf8.encode) := by
  induction cs generalizing piece with
  | nil => rw [Text.splitFrom, List.map_singleton, joinBlocks_singleton, List.append_nil]
  | cons c cs ih =>
      rw [Text.splitFrom]
      split
      · next hc =>
          obtain rfl := beq_iff_eq.mp hc
          rw [List.map_cons, joinBlocks_cons (by simp [Text.splitFrom_ne_nil]), ← ih]
          simp only [Text.Utf8.encode, List.flatMap_append, List.flatMap_cons]
          rfl
      · rw [← ih, List.reverse_cons, List.append_assoc, List.singleton_append]

theorem lineBytes_lines (text : String) :
    lineBytes (Text.lines text) =
      (Text.splitFrom '\n' [] text.toList).map Text.Utf8.encode := by
  simp [lineBytes, Text.lines, Text.splitAt, Function.comp_def]

theorem encode_eq_joinBlocks (text : String) :
    Text.Utf8.encode text.toList = joinBlocks (lineBytes (Text.lines text)) := by
  rw [lineBytes_lines, ← encode_splitFrom, List.reverse_nil, List.nil_append]

theorem newline_not_mem_lineBytes (text : String) :
    ∀ block ∈ lineBytes (Text.lines text), newline ∉ block := by
  rw [lineBytes_lines]
  intro block hmem
  obtain ⟨line, hline, rfl⟩ := List.mem_map.mp hmem
  rw [newline_mem_encode]
  exact Text.not_mem_splitFrom (by simp) line hline

theorem lineBytes_ne_nil (text : String) : lineBytes (Text.lines text) ≠ [] := by
  simp [lineBytes_lines, Text.splitFrom_ne_nil]

/-! ## Lines and offsets of a unit -/

namespace CompilationUnit

/-- Are the bytes of the unit those of its text? -/
def Encoded (unit : CompilationUnit) : Prop :=
  unit.code = Text.Utf8.encode unit.text.toList

theorem encoded_ofTree (path text : String) (root : Node) : (ofTree path text root).Encoded :=
  rfl

variable {unit : CompilationUnit}

theorem Encoded.code_eq (h : unit.Encoded) : unit.code = joinBlocks (lineBytes unit.lines) :=
  h.trans (encode_eq_joinBlocks unit.text)

theorem Encoded.exists_line (h : unit.Encoded) {offset : Nat}
    (hoffset : offset ≤ unit.code.length) :
    ∃ i bytes, (lineBytes unit.lines)[i]? = some bytes ∧
      blockStart (lineBytes unit.lines) i ≤ offset ∧
      offset ≤ blockStart (lineBytes unit.lines) i + bytes.length := by
  rw [h.code_eq] at hoffset
  exact exists_block (lineBytes_ne_nil unit.text) hoffset

theorem Encoded.lineOf_eq (h : unit.Encoded) {i : Nat} {bytes : List UInt8}
    (hi : (lineBytes unit.lines)[i]? = some bytes) {offset : Nat}
    (hstart : blockStart (lineBytes unit.lines) i ≤ offset)
    (hstop : offset ≤ blockStart (lineBytes unit.lines) i + bytes.length) :
    unit.lineOf offset = i + 1 := by
  have hblocks : ∀ block ∈ lineBytes unit.lines, newline ∉ block :=
    newline_not_mem_lineBytes unit.text
  rw [lineOf, lineOf_lineStarts, h.code_eq, Int.toNat_natCast,
    count_newline_take hblocks hi hstart hstop, Nat.add_comm]

theorem one_le_lineOf (offset : Int) : 1 ≤ unit.lineOf offset := by
  rw [lineOf, lineOf_lineStarts]
  omega

theorem Encoded.lineOf_le_length (h : unit.Encoded) {offset : Nat}
    (hoffset : offset ≤ unit.code.length) : unit.lineOf offset ≤ unit.lines.length := by
  obtain ⟨i, bytes, hi, hstart, hstop⟩ := h.exists_line hoffset
  have hlength := (List.getElem?_eq_some_iff.mp hi).1
  rw [lineBytes, List.length_map] at hlength
  rw [h.lineOf_eq hi hstart hstop]
  exact hlength

/-- The line of an offset is the only one on which it lies. -/
theorem Encoded.lineOf_eq_iff (h : unit.Encoded) {i : Nat} {bytes : List UInt8}
    (hi : (lineBytes unit.lines)[i]? = some bytes) {offset : Nat}
    (hoffset : offset ≤ unit.code.length) :
    unit.lineOf offset = i + 1 ↔
      blockStart (lineBytes unit.lines) i ≤ offset ∧
        offset ≤ blockStart (lineBytes unit.lines) i + bytes.length := by
  constructor
  · intro hline
    obtain ⟨j, other, hj, hstart, hstop⟩ := h.exists_line hoffset
    rw [h.lineOf_eq hj hstart hstop] at hline
    obtain rfl : j = i := by omega
    obtain rfl := Option.some.inj (hi.symm.trans hj)
    exact ⟨hstart, hstop⟩
  · rintro ⟨hstart, hstop⟩
    exact h.lineOf_eq hi hstart hstop

/-! ## The lines of a type -/

/-- The numbers of the first and the last line of a type, its documentation included. -/
def lineRange (unit : CompilationUnit) (type : TypeDeclaration) : Nat × Nat :=
  let (start, length) := type.span unit.code
  (unit.lineOf start, unit.lineOf (start + length - 1))

theorem typeLoc_eq (unit : CompilationUnit) (type : TypeDeclaration) :
    typeLoc unit type =
      Loc.countRange unit.lines (unit.lineRange type).1 (unit.lineRange type).2 :=
  rfl

theorem mem_descendants_of_enumerate {type : TypeDeclaration}
    (h : type ∈ unit.enumerate.map (·.2)) : type.node ∈ unit.root.descendants := by
  obtain ⟨spot, hstands⟩ := unit.exists_standsAt h
  rw [← Node.map_node_spots]
  exact List.mem_map.mpr ⟨spot, hstands.mem_spots, hstands.node_eq⟩

/-- A type whose bytes are bytes of the source has its lines among those of the source. -/
theorem Encoded.lineRange_spec (h : unit.Encoded) {type : TypeDeclaration}
    (hstop : type.node.stop ≤ unit.code.length) (hspan : 0 < (type.span unit.code).2) :
    1 ≤ (unit.lineRange type).1 ∧ (unit.lineRange type).1 ≤ (unit.lineRange type).2 ∧
      (unit.lineRange type).2 ≤ unit.lines.length := by
  simp only [TypeDeclaration.span] at hspan
  have hlast : (type.start unit.code : Int) + (type.node.stop - type.start unit.code) - 1 =
      (type.node.stop - 1 : Nat) := by omega
  simp only [lineRange, TypeDeclaration.span, hlast]
  refine ⟨one_le_lineOf _, ?_, h.lineOf_le_length (by omega)⟩
  exact lineOf_mono unit.code (by omega)

end CompilationUnit

theorem range_of_le {lines : List String} {first last : Nat} (hfirst : 1 ≤ first)
    (hlast : last ≤ lines.length) :
    Loc.range lines first last = (lines.take last).drop (first - 1) := by
  have hskip : (max (first : Int) 1 - 1).toNat = first - 1 := by omega
  have htake : (min (last : Int) lines.length).toNat = last := by omega
  rw [Loc.range, hskip, htake]

/-- How the lines of a unit and the offsets into its bytes fit together. -/
structure LineAccount (unit : CompilationUnit) : Prop where
  /-- A line is where its bytes are. -/
  placed : ∀ i bytes, (lineBytes unit.lines)[i]? = some bytes →
    slice unit.code (blockStart (lineBytes unit.lines) i)
      (blockStart (lineBytes unit.lines) i + bytes.length) = bytes
  counted : ∀ offset : Nat, offset ≤ unit.code.length →
    unit.lineOf offset = 1 + (unit.code.take offset).count newline
  bounded : ∀ offset : Nat, offset ≤ unit.code.length →
    1 ≤ unit.lineOf offset ∧ unit.lineOf offset ≤ unit.lines.length
  /-- The line of an offset is the one from whose start to whose end it lies, the newline that ends
  the line included. -/
  unique : ∀ offset : Nat, offset ≤ unit.code.length →
    ∀ i bytes, (lineBytes unit.lines)[i]? = some bytes →
      (unit.lineOf offset = i + 1 ↔
        blockStart (lineBytes unit.lines) i ≤ offset ∧
          offset ≤ blockStart (lineBytes unit.lines) i + bytes.length)
  monotone : ∀ first second : Int, first ≤ second → unit.lineOf first ≤ unit.lineOf second
  negative : ∀ offset : Int, offset < 0 → unit.lineOf offset = 1
  /-- The lines of a type are lines of the source, in a tree whose nodes lie within it. -/
  ofType : (∀ node ∈ unit.root.descendants, node.stop ≤ unit.code.length) →
    ∀ type ∈ unit.enumerate.map (·.2), 0 < (type.span unit.code).2 →
      ∀ first last, unit.lineRange type = (first, last) →
        1 ≤ first ∧ first ≤ last ∧ last ≤ unit.lines.length ∧
        typeLoc unit type = Loc.count ((unit.lines.take last).drop (first - 1))

/-- Looking an offset up among the starts of lines gives the line of the text that it lies on. -/
theorem lines_and_offsets_agree (path text : String) (root : Node) :
    LineAccount (.ofTree path text root) where
  placed i bytes hi := by
    rw [(CompilationUnit.encoded_ofTree path text root).code_eq]
    exact slice_joinBlocks (newline_not_mem_lineBytes text) hi
  counted offset _ := lineOf_lineStarts _ offset
  bounded offset hoffset := ⟨CompilationUnit.one_le_lineOf _,
    (CompilationUnit.encoded_ofTree path text root).lineOf_le_length hoffset⟩
  unique offset hoffset i bytes hi :=
    (CompilationUnit.encoded_ofTree path text root).lineOf_eq_iff hi hoffset
  monotone first second hle := lineOf_mono _ hle
  negative offset hnegative := by
    have hzero : offset.toNat = 0 := by omega
    rw [CompilationUnit.lineOf, lineOf_lineStarts, hzero]
    rfl
  ofType hwithin type htype hspan first last hrange := by
    have hstop := hwithin type.node (CompilationUnit.mem_descendants_of_enumerate htype)
    have hlines :=
      (CompilationUnit.encoded_ofTree path text root).lineRange_spec hstop hspan
    rw [CompilationUnit.typeLoc_eq, hrange] at *
    obtain ⟨hfirst, hle, hlast⟩ := hlines
    refine ⟨hfirst, hle, hlast, ?_⟩
    rw [Loc.countRange, range_of_le hfirst hlast]

/-- A class behind documentation with a character that takes two bytes. -/
def accentedType : CompilationUnit :=
  .ofTree "A.java" "/**é*/\nclass A\x7b\n\x7d"
    { kind := "program", start := 0, stop := 18, children := [
      { kind := "block_comment", start := 0, stop := 7 },
      { kind := "class_declaration", start := 8, stop := 18, children := [
        { kind := "identifier", field := some .name, start := 14, stop := 15 },
        { kind := "class_body", field := some .body, start := 15, stop := 18 }] }] }

theorem lines_of_accented_type :
    accentedType.lineOf 16 = 2 ∧ ∃ type ∈ accentedType.enumerate.map (·.2),
      accentedType.lineRange type = (1, 3) ∧
        typeLoc accentedType type = Loc.count accentedType.lines := by
  have haccount : LineAccount accentedType := lines_and_offsets_agree _ _ _
  have hlisted : accentedType.enumerate.map (·.2) ≠ [] := by decide +kernel
  have hrange : accentedType.lineRange ((accentedType.enumerate.map (·.2)).head hlisted) =
      (1, 3) := by decide +kernel +revert
  refine ⟨?_, _, List.head_mem hlisted, hrange, ?_⟩
  · exact (haccount.unique 16 (by decide +kernel) 1 _ rfl).mpr (by decide +kernel)
  · have hwithin : ∀ node ∈ accentedType.root.descendants,
        node.stop ≤ accentedType.code.length := by decide +kernel
    obtain ⟨-, -, -, hcount⟩ := haccount.ofType hwithin _ (List.head_mem hlisted)
      (by decide +kernel +revert) 1 3 hrange
    exact hcount

end JavaMetrics.Java
