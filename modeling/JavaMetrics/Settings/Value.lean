import JavaMetrics.Number.Shortest
import JavaMetrics.Text.Digit
import JavaMetrics.Text.Quoted

/-!
# Values of settings

A setting can be given in a file, in the environment or on the command line, and
is not checked for its type before it is used, so settings hold values of any
type that a settings file can write. Messages show a value by `Value.text`. Lists
and tables may be nested to any depth; the stack that it takes to show them is
left out.
-/

namespace JavaMetrics.Settings

open Number (Binary64)

/-- A calendar date. -/
structure Date where
  year : Nat
  month : Nat
  day : Nat
deriving DecidableEq, Repr

/-- A time of day. -/
structure Time where
  hour : Nat
  minute : Nat
  second : Nat
  microsecond : Nat
deriving DecidableEq, Repr

/-- A value of a setting. -/
inductive Value where
  | null
  | bool (b : Bool)
  | int (i : Int)
  | float (x : Binary64)
  | text (s : String)
  | list (items : List Value)
  /-- Keys with their values, in the order in which they were first given. -/
  | table (entries : List (String × Value))
  | date (d : Date)
  | time (t : Time)
  /-- A date and a time, with the offset from universal time in minutes if it is known. -/
  | dateTime (d : Date) (t : Time) (offset : Option Int)
deriving Repr

namespace Value

/-- Does the value count as given? Nothing, zero and what is empty do not. -/
def isTrue : Value → Bool
  | null => false
  | bool b => b
  | int i => i != 0
  | float x => !x.isZero
  | text s => !s.isEmpty
  | list items => !items.isEmpty
  | table entries => !entries.isEmpty
  | date _ => true
  | time _ => true
  | dateTime _ _ _ => true

/-- The name of the type of a value, within the group of types that it belongs to. -/
def shortTypeName : Value → String
  | null => "NoneType"
  | bool _ => "bool"
  | int _ => "int"
  | float _ => "float"
  | text _ => "str"
  | list _ => "list"
  | table _ => "dict"
  | date _ => "date"
  | time _ => "time"
  | dateTime _ _ _ => "datetime"

/-- The full name of the type of a value. -/
def typeName (value : Value) : String :=
  match value with
  | date _ | time _ | dateTime _ _ _ => "datetime." ++ value.shortTypeName
  | _ => value.shortTypeName

/-- The numbers of a time; seconds are left out when they and what is below them is zero. -/
def timeNumbers (t : Time) : List Nat :=
  if t.microsecond != 0 then [t.hour, t.minute, t.second, t.microsecond]
  else if t.second != 0 then [t.hour, t.minute, t.second]
  else [t.hour, t.minute]

/-- Numbers with a comma between them. -/
def commaSeparated (numbers : List Nat) : String :=
  ", ".intercalate (numbers.map toString)

/-- An offset from universal time, which has a name of its own. An offset to the west is counted
from the day before. -/
def offsetText (minutes : Int) : String :=
  if minutes = 0 then "datetime.timezone.utc"
  else
    let length :=
      if minutes < 0 then s!"days=-1, seconds={86400 + 60 * minutes}" else s!"seconds={60 * minutes}"
    s!"datetime.timezone(datetime.timedelta({length}))"

mutual

/-- Is there an integer in the value that has more digits than are ever written? -/
def hasLongInteger : Value → Bool
  | int i => decide (Nat.pow 10 Text.digitLimit ≤ i.natAbs)
  | list items => anyLongInteger items
  | table entries => anyLongEntry entries
  | _ => false

/-- Is there such an integer in one of some values? -/
def anyLongInteger : List Value → Bool
  | [] => false
  | value :: rest => hasLongInteger value || anyLongInteger rest

/-- Is there such an integer in one of the entries of a table? -/
def anyLongEntry : List (String × Value) → Bool
  | [] => false
  | (_, value) :: rest => hasLongInteger value || anyLongEntry rest

end

mutual

/-- The text of a value inside a message: text is quoted. -/
def shown : Value → String
  | null => "None"
  | bool b => if b then "True" else "False"
  | int i => toString i
  | float x => x.text
  | text s => Text.quoted s
  | list items => "[" ++ ", ".intercalate (shownAll items) ++ "]"
  | table entries => "\x7b" ++ ", ".intercalate (shownEntries entries) ++ "\x7d"
  | date d => s!"datetime.date({commaSeparated [d.year, d.month, d.day]})"
  | time t => s!"datetime.time({commaSeparated (timeNumbers t)})"
  | dateTime d t offset =>
    let numbers := commaSeparated ([d.year, d.month, d.day] ++ timeNumbers t)
    match offset with
    | none => s!"datetime.datetime({numbers})"
    | some minutes => s!"datetime.datetime({numbers}, tzinfo={offsetText minutes})"

/-- The texts of some values. -/
def shownAll : List Value → List String
  | [] => []
  | value :: rest => shown value :: shownAll rest

/-- The texts of the entries of a table. -/
def shownEntries : List (String × Value) → List String
  | [] => []
  | (key, value) :: rest => (Text.quoted key ++ ": " ++ shown value) :: shownEntries rest

end

/-- The text of a value by itself: text is not quoted. -/
def plain : Value → String
  | text s => s
  | value => value.shown

end Value

/-! ## Tables -/

/-- Puts a value under a key: in the place of the key if it is there, else at the end. -/
def assign {α : Type} (key : String) (value : α) : List (String × α) → List (String × α)
  | [] => [(key, value)]
  | (k, v) :: rest => if k == key then (k, value) :: rest else (k, v) :: assign key value rest

/-- A table with the entries of another one put into it, one after the other. -/
def merge {α : Type} (table additions : List (String × α)) : List (String × α) :=
  additions.foldl (fun table (key, value) => assign key value table) table

end JavaMetrics.Settings
