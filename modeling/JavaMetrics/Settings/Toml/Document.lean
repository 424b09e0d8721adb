import JavaMetrics.Settings.Toml.Scalar

/-!
# TOML: documents

A document is a list of lines: assignments, headers of tables, headers of tables
in arrays. Tables can be opened once, and what is written as one value cannot be
added to later; `Marks` remembers which tables that holds for.
-/

namespace JavaMetrics.Settings.Toml

/-- The entries of a table, in order. -/
abbrev Table := List (String × Value)

/-- Changes the table that a list of keys leads to from another table. Tables that are not there
are made. Where `throughArrays` holds, an array stands for its last table. Nothing when a key leads
to something else, or the change fails. -/
def changeAt (throughArrays : Bool) (change : Table → Option Table) : List String → Table → Option Table
  | [], table => change table
  | k :: ks, table =>
    match table.lookup k with
    | none => (changeAt throughArrays change ks []).map fun inner => assign k (.table inner) table
    | some (.table inner) =>
      (changeAt throughArrays change ks inner).map fun inner => assign k (.table inner) table
    | some (.list items) =>
      if throughArrays then
        match items.getLast? with
        | some (.table inner) =>
          (changeAt throughArrays change ks inner).map fun inner =>
            assign k (.list (items.dropLast ++ [.table inner])) table
        | _ => none
      else none
    | some _ => none

/-- Adds an entry to a table that does not have its key. -/
def addEntry (k : String) (value : Value) (table : Table) : Option Table :=
  match table.lookup k with
  | none => some (table ++ [(k, value)])
  | some _ => none

/-- Adds an empty table to the array under a key. -/
def addTable (k : String) (table : Table) : Option Table :=
  match table.lookup k with
  | none => some (table ++ [(k, .list [.table []])])
  | some (.list items) => some (assign k (.list (items ++ [.table []])) table)
  | some _ => none

/-- What is known of the tables of a document. -/
structure Marks where
  /-- Tables that have been opened. -/
  opened : List (List String) := []
  /-- Values with all that is in them. -/
  closed : List (List String) := []

namespace Marks

/-- Has the table been opened? -/
def isOpened (marks : Marks) (path : List String) : Bool :=
  marks.opened.contains path

/-- Is the table part of a value that was written as one? -/
def isClosed (marks : Marks) (path : List String) : Bool :=
  marks.closed.any fun value => value.isPrefixOf path

/-- Forgets a table and all that is in it. -/
def forget (marks : Marks) (path : List String) : Marks :=
  { opened := marks.opened.filter fun p => !path.isPrefixOf p
    closed := marks.closed.filter fun p => !path.isPrefixOf p }

end Marks

/-- Is the value made of other values? -/
def isCompound : Value → Bool
  | .list _ => true
  | .table _ => true
  | _ => false

/-- Skips blanks, line breaks and comments. The first argument bounds the number of steps. -/
def skipLines : Nat → List Char → Option (List Char)
  | 0, cs => some cs
  | steps + 1, cs =>
    match cs.dropWhile isBlankOrBreak with
    | '#' :: rest => (skipComment ('#' :: rest)).bind (skipLines steps)
    | rest => some rest

mutual

/-- Any value. The first argument bounds the depth and the number of values in a row. -/
def value : Nat → Reader Value
  | 0, _ => none
  | steps + 1, cs =>
    match cs with
    | '"' :: _ => (string cs).map fun (s, rest) => (.text s, rest)
    | '\'' :: _ => (string cs).map fun (s, rest) => (.text s, rest)
    | 't' :: 'r' :: 'u' :: 'e' :: rest => some (.bool true, rest)
    | 'f' :: 'a' :: 'l' :: 's' :: 'e' :: rest => some (.bool false, rest)
    | '[' :: rest =>
      (skipLines rest.length rest).bind fun rest =>
        match rest with
        | ']' :: after => some (.list [], after)
        | _ => (arrayItems steps rest).map fun (items, after) => (.list items, after)
    | '{' :: rest =>
      match skipBlanks rest with
      | '}' :: after => some (.table [], after)
      | rest => (inlineEntries steps {} [] rest).map fun (table, after) => (.table table, after)
    | _ => numberOrDate cs

/-- The items of an array from the next one on, up to and with the closing bracket. -/
def arrayItems : Nat → Reader (List Value)
  | 0, _ => none
  | steps + 1, cs =>
    (value steps cs).bind fun (item, rest) =>
      (skipLines rest.length rest).bind fun rest =>
        match rest with
        | ']' :: after => some ([item], after)
        | ',' :: more =>
          (skipLines more.length more).bind fun more =>
            match more with
            | ']' :: after => some ([item], after)
            | _ => (arrayItems steps more).map fun (items, after) => (item :: items, after)
        | _ => none

/-- The entries of an inline table from the next one on, up to and with the closing brace. -/
def inlineEntries : Nat → Marks → Table → Reader Table
  | 0, _, _, _ => none
  | steps + 1, marks, table, cs =>
    (key cs).bind fun (path, rest) =>
      match rest with
      | '=' :: rest =>
        (value steps (skipBlanks rest)).bind fun (item, rest) =>
          let last := path.getLast?.getD ""
          if marks.isClosed path then none
          else
            (changeAt false (addEntry last item) path.dropLast table).bind fun table =>
              match skipBlanks rest with
              | '}' :: after => some (table, after)
              | ',' :: more =>
                let marks :=
                  if isCompound item then { marks with closed := path :: marks.closed } else marks
                inlineEntries steps marks table (skipBlanks more)
              | _ => none
      | _ => none

end

/-- A document that is being read. -/
structure Document where
  data : Table := []
  marks : Marks := {}
  /-- Tables that count as opened from the next header on. -/
  pending : List (List String) := []
  /-- The table that assignments go to. -/
  header : List String := []

namespace Document

/-- The proper beginnings of a list of keys, the shortest first, without the empty one. -/
def properPrefixes (path : List String) : List (List String) :=
  (List.range (path.length - 1)).map fun n => path.take (n + 1)

/-- Adds an assignment. -/
def assignment (doc : Document) (path : List String) (item : Value) : Option Document :=
  let full := doc.header ++ path
  let parents := (properPrefixes path).map (doc.header ++ ·)
  if parents.any doc.marks.isOpened then none
  else if doc.marks.isClosed (doc.header ++ path.dropLast) then none
  else
    (changeAt true (addEntry (path.getLast?.getD "") item) full.dropLast doc.data).map fun data =>
      { doc with
        data
        pending := parents ++ doc.pending
        marks :=
          if isCompound item then { doc.marks with closed := full :: doc.marks.closed }
          else doc.marks }

/-- Makes the pending tables opened ones. -/
def settle (doc : Document) : Document :=
  { doc with marks := { doc.marks with opened := doc.pending ++ doc.marks.opened }, pending := [] }

/-- Opens a table. -/
def openTable (doc : Document) (path : List String) : Option Document :=
  if doc.marks.isOpened path || doc.marks.isClosed path then none
  else
    (changeAt true some path doc.data).map fun data =>
      { doc with data, header := path
                 marks := { doc.marks with opened := path :: doc.marks.opened } }

/-- Opens one more table in an array. -/
def openArrayTable (doc : Document) (path : List String) : Option Document :=
  if doc.marks.isClosed path then none
  else
    let marks := doc.marks.forget path
    (changeAt true (addTable (path.getLast?.getD "")) path.dropLast doc.data).map fun data =>
      { doc with data, header := path, marks := { marks with opened := path :: marks.opened } }

/-- Reads what a line says, if it says anything: an assignment or a header. -/
def statement (doc : Document) (cs : List Char) : Option (Document × List Char) :=
  match cs with
  | '[' :: '[' :: rest =>
    (key (skipBlanks rest)).bind fun (path, after) =>
      match after with
      | ']' :: ']' :: after => (doc.settle.openArrayTable path).map fun doc => (doc, after)
      | _ => none
  | '[' :: rest =>
    (key (skipBlanks rest)).bind fun (path, after) =>
      match after with
      | ']' :: after => (doc.settle.openTable path).map fun doc => (doc, after)
      | _ => none
  | _ =>
    (key cs).bind fun (path, after) =>
      match after with
      | '=' :: after =>
        (value (2 * after.length + 2) (skipBlanks after)).bind fun (item, after) =>
          (doc.assignment path item).map fun doc => (doc, after)
      | _ => none

/-- Reads the lines of a document. The first argument bounds their number. -/
def readLines : Nat → Document → List Char → Option Document
  | 0, _, _ => none
  | steps + 1, doc, cs =>
    match skipBlanks cs with
    | [] => some doc
    | '\n' :: rest => readLines steps doc rest
    | rest =>
      let read := if rest.head? == some '#' then some (doc, rest) else statement doc rest
      read.bind fun (doc, after) =>
        (skipComment (skipBlanks after)).bind fun after =>
          match after with
          | [] => some doc
          | '\n' :: more => readLines steps doc more
          | _ => none

end Document

/-- Makes single line breaks of those that are written with a carriage return. -/
def unifyBreaks : List Char → List Char
  | '\r' :: '\n' :: rest => '\n' :: unifyBreaks rest
  | c :: rest => c :: unifyBreaks rest
  | [] => []

/-- The table that a document writes, if it is one. -/
def parse? (text : List Char) : Option Table :=
  let cs := unifyBreaks text
  (Document.readLines (cs.length + 1) {} cs).map (·.data)

end JavaMetrics.Settings.Toml
