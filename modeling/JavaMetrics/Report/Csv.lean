import JavaMetrics.Files.Access
import JavaMetrics.Metrics.Record
import JavaMetrics.Text.Utf8

/-!
# The result as a table

Records are written as comma-separated values, sorted by name, with a header in
front. The short layout has the three figures that are measured; the full one has
22 columns, of which all others are zero.
-/

namespace JavaMetrics.Report

open Metrics (Record)
open Files (Tree Path)

/-- The layouts of the table. -/
inductive Layout where
  | short
  | full
deriving DecidableEq, Repr

/-- The headers of the columns. -/
def Layout.columns : Layout → List String
  | .short => ["name", "npm", "loc"]
  | .full =>
    ["name", "wmc", "dit", "noc", "cbo", "rfc", "lcom", "ca", "ce", "npm", "lcom3", "loc", "dam",
      "moa", "mfa", "cam", "ic", "cbm", "amc", "max_cc", "avg_cc", "bug"]

/-- What stands in a field. -/
inductive Cell where
  | text (s : String)
  | number (i : Int)
deriving DecidableEq, Repr

/-- The content of a field in writing. Counts are written in full, however many digits they have. -/
def Cell.content : Cell → String
  | text s => s
  | number i => toString i

/-- What a record has in a column; zero in the columns that are not measured. -/
def cellOf (record : Record) (column : String) : Cell :=
  if column == "name" then .text record.name
  else if column == "npm" then .number record.npm
  else if column == "loc" then .number record.loc
  else .number 0

/-- The row of a record. -/
def row (layout : Layout) (record : Record) : List Cell :=
  layout.columns.map (cellOf record)

/-- The records by name, in the order of code points. Records of one name keep their order. -/
def sortRecords (records : List Record) : List Record :=
  records.mergeSort fun a b => decide (a.name ≤ b.name)

namespace Csv

/-- The characters that a field cannot hold as it is. -/
def isSpecial (c : Char) : Bool :=
  c == ',' || c == '"' || c == '\r' || c == '\n'

/-- The text of a field: in quotes if it has to be, and then with every quote doubled. -/
def field (content : List Char) : List Char :=
  if content.any isSpecial then
    '"' :: (content.flatMap fun c => if c == '"' then ['"', '"'] else [c]) ++ ['"']
  else content

/-- The text of a line, with its end. -/
def line (contents : List (List Char)) : List Char :=
  List.intercalate [','] (contents.map field) ++ ['\r', '\n']

end Csv

/-- The lines of the table, as the contents of their fields. -/
def rows (layout : Layout) (records : List Record) : List (List String) :=
  layout.columns :: (sortRecords records).map fun record => (row layout record).map Cell.content

/-- The table in writing. -/
def format (layout : Layout) (records : List Record) : String :=
  String.ofList ((rows layout records).flatMap fun fields => Csv.line (fields.map String.toList))

/-- Writes the table to a file, for which folders are made where they are missing. Gives the tree
after that, which may have new folders also when the file cannot be written, and the number of
records. -/
def write (layout : Layout) (records : List Record) (path : Path) (tree : Tree) :
    Tree × Except Failure Nat :=
  match tree.ensureFolders path.parent with
  | (prepared, some failure) => (prepared, .error (failure.asFault (.unwritable path.text)))
  | (prepared, none) =>
    match prepared.write path (Text.Utf8.encode (format layout records).toList) with
    | .error failure => (prepared, .error (failure.asFault (.unwritable path.text)))
    | .ok written => (written, .ok records.length)

end JavaMetrics.Report
