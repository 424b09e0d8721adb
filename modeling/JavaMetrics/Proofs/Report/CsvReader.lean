import JavaMetrics.Proofs.Report.StableSort
import Mathlib.Data.List.Basic

/-!
# The table reads back

A reader for comma-separated values, and the table read with it. The reader
knows nothing of tables or columns: fields are separated by commas, lines end
with a carriage return and a line feed, and a field in quotes may hold all of
these, with every quote in it doubled. What does not fit this is refused.

Everything rests on `readFrom_field`: the text of a field, written in front of
whatever ends a field, is read as that field. From there it is one induction over
the fields of a line and one over the lines (`read_lines`), so that the reader
undoes the writer for any contents of the fields, commas, quotes and line breaks
included. The two layouts then differ in nothing but columns of zeros.
-/

namespace JavaMetrics.Report

open Metrics (Record)

namespace Csv

/-- Where the reader is in a field. -/
inductive Place where
  | start
  | plain
  | quoted
  /-- Behind the quote that ends a field in quotes. -/
  | closed
deriving DecidableEq, Repr

/-- Puts text in front of the first field of the first line. -/
def prepend (text : List Char) : List (List (List Char)) → List (List (List Char))
  | (field :: fields) :: lines => ((text ++ field) :: fields) :: lines
  | lines => lines

/-- Puts a field in front of those of the first line. -/
def consField (field : List Char) : List (List (List Char)) → List (List (List Char))
  | [] => []
  | fields :: lines => (field :: fields) :: lines

/-- The lines of a text, the first of which goes on from a place in its first field. -/
def readFrom : Place → List Char → Option (List (List (List Char)))
  | .start, '"' :: rest => readFrom .quoted rest
  | .quoted, '"' :: '"' :: rest => (readFrom .quoted rest).map (prepend ['"'])
  | .quoted, '"' :: rest => readFrom .closed rest
  | .quoted, c :: rest => (readFrom .quoted rest).map (prepend [c])
  | .quoted, [] => none
  | _, [] => some [[[]]]
  | _, ',' :: rest => (readFrom .start rest).map (consField [])
  | _, '\r' :: '\n' :: rest =>
    if rest.isEmpty then some [[[]]] else (readFrom .start rest).map ([[]] :: ·)
  | .closed, _ => none
  | _, c :: rest =>
    if c = '"' ∨ c = '\r' ∨ c = '\n' then none
    else (readFrom .plain rest).map (prepend [c])

/-- The lines of a text, each with its fields. -/
def read (text : List Char) : Option (List (List (List Char))) :=
  if text.isEmpty then some [] else readFrom .start text

/-! ## Fields -/

/-- Does a field end here? -/
def EndsField (text : List Char) : Prop :=
  text = [] ∨ (∃ rest, text = ',' :: rest) ∨ ∃ rest, text = '\r' :: '\n' :: rest

theorem readFrom_of_endsField {text : List Char} (h : EndsField text) {place : Place}
    (hplace : place ≠ .quoted) : readFrom place text = readFrom .closed text := by
  cases place with
  | quoted => exact absurd rfl hplace
  | closed => rfl
  | start => rcases h with rfl | ⟨rest, rfl⟩ | ⟨rest, rfl⟩ <;> simp [readFrom]
  | plain => rcases h with rfl | ⟨rest, rfl⟩ | ⟨rest, rfl⟩ <;> simp [readFrom]

-- Nothing that ends a field begins with a quote, so the closing one is not taken for a doubled one.
theorem readFrom_closing_quote {rest : List Char} (h : EndsField rest) :
    readFrom .quoted ('"' :: rest) = readFrom .closed rest := by
  rcases h with rfl | ⟨rest, rfl⟩ | ⟨rest, rfl⟩ <;> rw [readFrom] <;> simp

theorem readFrom_comma (rest : List Char) :
    readFrom .closed (',' :: rest) = (readFrom .start rest).map (consField []) := by
  simp [readFrom]

theorem readFrom_lineEnd (rest : List Char) :
    readFrom .closed ('\r' :: '\n' :: rest) = (read rest).map ([[]] :: ·) := by
  cases rest <;> simp [readFrom, read]

theorem map_prepend_nil (lines? : Option (List (List (List Char)))) :
    lines?.map (prepend []) = lines? := by
  rcases lines? with _ | _ | ⟨_ | ⟨field, fields⟩, lines⟩ <;> rfl

theorem map_prepend_cons (c : Char) (content : List Char)
    (lines? : Option (List (List (List Char)))) :
    (lines?.map (prepend content)).map (prepend [c]) = lines?.map (prepend (c :: content)) := by
  rcases lines? with _ | _ | ⟨_ | ⟨field, fields⟩, lines⟩ <;> rfl

/-- What `field` writes between the quotes. -/
def escaped (content : List Char) : List Char :=
  content.flatMap fun c => if c == '"' then ['"', '"'] else [c]

theorem readFrom_escaped (content : List Char) {rest : List Char} (h : EndsField rest) :
    readFrom .quoted (escaped content ++ '"' :: rest) =
      (readFrom .closed rest).map (prepend content) := by
  induction content with
  | nil =>
      rw [map_prepend_nil]
      exact readFrom_closing_quote h
  | cons c content ih =>
      have hstep : readFrom .quoted (escaped (c :: content) ++ '"' :: rest) =
          (readFrom .quoted (escaped content ++ '"' :: rest)).map (prepend [c]) := by
        by_cases hc : c = '"'
        · subst hc
          simp [escaped, readFrom]
        · simp [escaped, readFrom, hc]
      rw [hstep, ih, map_prepend_cons]

theorem readFrom_plain {content : List Char} (hplain : content.any isSpecial = false)
    {rest : List Char} (h : EndsField rest) {place : Place}
    (hplace : place = .start ∨ place = .plain) :
    readFrom place (content ++ rest) =
      (readFrom .closed rest).map (prepend content) := by
  -- The first character is read at the start of the field, the others within it.
  induction content generalizing place with
  | nil =>
      have hne : place ≠ .quoted := by rcases hplace with rfl | rfl <;> decide
      rw [map_prepend_nil]
      exact readFrom_of_endsField h hne
  | cons c content ih =>
      rw [List.any_cons, Bool.or_eq_false_iff] at hplain
      obtain ⟨hc, hplain⟩ := hplain
      have hstep : readFrom place (c :: content ++ rest) =
          (readFrom .plain (content ++ rest)).map (prepend [c]) := by
        simp only [isSpecial, Bool.or_eq_false_iff, beq_eq_false_iff_ne] at hc
        rcases hplace with rfl | rfl <;> simp [readFrom, hc]
      rw [hstep, ih hplain (.inr rfl), map_prepend_cons]

/-- A field, in quotes or not, is read as its content. -/
theorem readFrom_field (content : List Char) {rest : List Char} (h : EndsField rest) :
    readFrom .start (field content ++ rest) =
      (readFrom .closed rest).map (prepend content) := by
  unfold field
  split
  · rw [List.append_assoc]
    exact readFrom_escaped content h
  next hplain =>
    exact readFrom_plain (Bool.eq_false_iff.2 hplain) h (.inl rfl)

/-! ## Lines -/

theorem read_of_ne_nil {text : List Char} (h : text ≠ []) : read text = readFrom .start text := by
  simp [read, h]

theorem line_ne_nil (contents : List (List Char)) (rest : List Char) :
    line contents ++ rest ≠ [] := by
  simp [line]

theorem line_singleton (content : List Char) :
    line [content] = field content ++ ['\r', '\n'] := by
  simp [line]

theorem line_cons_cons (content next : List Char) (contents : List (List Char)) :
    line (content :: next :: contents) = field content ++ ',' :: line (next :: contents) := by
  simp [line, List.intercalate]

theorem read_line (contents : List (List Char)) (hne : contents ≠ []) (rest : List Char) :
    read (line contents ++ rest) = (read rest).map (contents :: ·) := by
  rw [read_of_ne_nil (line_ne_nil contents rest)]
  induction contents with
  | nil => exact absurd rfl hne
  | cons content contents ih =>
      cases contents with
      | nil =>
          have hend : EndsField ('\r' :: '\n' :: rest) := .inr (.inr ⟨rest, rfl⟩)
          rw [line_singleton, List.append_assoc]
          simp [readFrom_field content hend, readFrom_lineEnd, prepend, Function.comp_def]
      | cons next contents =>
          have hend : EndsField (',' :: (line (next :: contents) ++ rest)) := .inr (.inl ⟨_, rfl⟩)
          rw [line_cons_cons, List.append_assoc, List.cons_append, readFrom_field content hend,
            readFrom_comma, ih (by simp)]
          simp [consField, prepend, Function.comp_def]

/-- The reader undoes the writer, whatever the fields hold. -/
theorem read_lines (lines : List (List (List Char))) (h : ∀ contents ∈ lines, contents ≠ []) :
    read (lines.flatMap line) = some lines := by
  induction lines with
  | nil => rfl
  | cons contents lines ih =>
      rw [List.forall_mem_cons] at h
      rw [List.flatMap_cons, read_line contents h.1, ih h.2]
      rfl

-- What the writer never writes is refused: text behind the closing quote of a field.
example : read ['"', 'a', '"', 'b', '\r', '\n'] = none := by decide

end Csv

/-! ## Tables -/

/-- The table that a text holds: its lines, the first of which is the header. -/
def readTable (text : String) : Option (List (List String)) :=
  (Csv.read text.toList).map fun lines => lines.map fun fields => fields.map String.ofList

/-- The columns of a table that have some headers, in the order of these. -/
def project (headers : List String) (table : List (List String)) : List (List String) :=
  table.map fun fields => headers.filterMap fun header => fields[(table.headD []).idxOf header]?

/-- What the two layouts say of the same records. -/
structure ReadsBack (records : List Record) : Prop where
  /-- Each record has its row. -/
  perm : (sortRecords records).Perm records
  short : readTable (format .short records) =
    some (["name", "npm", "loc"] :: (sortRecords records).map fun record =>
      [record.name, toString record.npm, toString record.loc])
  full : readTable (format .full records) =
    some (["name", "wmc", "dit", "noc", "cbo", "rfc", "lcom", "ca", "ce", "npm", "lcom3", "loc",
        "dam", "moa", "mfa", "cam", "ic", "cbm", "amc", "max_cc", "avg_cc", "bug"] ::
      (sortRecords records).map fun record =>
        [record.name, "0", "0", "0", "0", "0", "0", "0", "0", toString record.npm, "0",
          toString record.loc, "0", "0", "0", "0", "0", "0", "0", "0", "0", "0"])
  projected : (readTable (format .full records)).map (project ["name", "npm", "loc"]) =
    readTable (format .short records)
  zero : ∀ table, readTable (format .full records) = some table →
    ∀ fields ∈ table.tail, ∀ header value, (header, value) ∈ (table.headD []).zip fields →
      header ∉ ["name", "npm", "loc"] → value = "0"

variable (layout : Layout) (records : List Record)

theorem columns_ne_nil : layout.columns ≠ [] := by
  cases layout <;> simp [Layout.columns]

theorem ne_nil_of_mem_rows {fields : List String} (h : fields ∈ rows layout records) :
    fields ≠ [] := by
  rcases List.mem_cons.1 h with rfl | h
  · exact columns_ne_nil layout
  · obtain ⟨record, -, rfl⟩ := List.mem_map.1 h
    simp [row, columns_ne_nil]

theorem readTable_format : readTable (format layout records) = some (rows layout records) := by
  have hlines : Csv.read ((rows layout records).flatMap fun fields =>
      Csv.line (fields.map String.toList)) =
        some ((rows layout records).map fun fields => fields.map String.toList) := by
    rw [← Csv.read_lines ((rows layout records).map fun fields => fields.map String.toList),
      List.flatMap_map]
    intro contents hmem
    obtain ⟨fields, hfields, rfl⟩ := List.mem_map.1 hmem
    simpa using ne_nil_of_mem_rows layout records hfields
  simp [readTable, format, hlines, Function.comp_def]

/-- Fields that each depend on their header alone are found again by it. -/
theorem filterMap_idxOf {chosen headers : List String} (h : chosen ⊆ headers)
    (valueOf : String → String) :
    (chosen.filterMap fun header => (headers.map valueOf)[headers.idxOf header]?) =
      chosen.map valueOf := by
  have hfield : ∀ header ∈ chosen,
      (headers.map valueOf)[headers.idxOf header]? = some (valueOf header) := by
    intro header hmem
    rw [List.getElem?_map, List.getElem?_idxOf (h hmem)]
    rfl
  rw [List.filterMap_congr hfield, List.filterMap_eq_map']

theorem project_rows {narrow wide : Layout} (h : narrow.columns ⊆ wide.columns) :
    project narrow.columns (rows wide records) = rows narrow records := by
  have hheader := filterMap_idxOf h id
  rw [List.map_id, List.map_id] at hheader
  simp only [project, rows, row, List.headD_cons, List.map_cons, List.map_map, hheader]
  congr 1
  refine List.map_congr_left fun record _ => ?_
  exact filterMap_idxOf h fun header => (cellOf record header).content

theorem cellOf_unmeasured (record : Record) {header : String}
    (h : header ∉ Layout.short.columns) : cellOf record header = .number 0 := by
  simp only [Layout.columns, List.mem_cons, List.not_mem_nil, or_false, not_or] at h
  simp [cellOf, h]

theorem value_of_unmeasured {fields : List String} (hmem : fields ∈ (rows layout records).tail)
    {header value : String} (hvalue : (header, value) ∈ layout.columns.zip fields)
    (h : header ∉ Layout.short.columns) : value = "0" := by
  obtain ⟨record, -, rfl⟩ := List.mem_map.1 hmem
  rw [row, List.map_map, List.zip_map_right, List.zip_eq_zipWith, List.zipWith_self,
    List.map_map] at hvalue
  obtain ⟨column, -, hpair⟩ := List.mem_map.1 hvalue
  obtain ⟨rfl, rfl⟩ := Prod.mk.inj hpair
  exact congrArg Cell.content (cellOf_unmeasured record h)

end JavaMetrics.Report
