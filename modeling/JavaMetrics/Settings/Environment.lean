import JavaMetrics.Failure
import JavaMetrics.Text.Blank
import JavaMetrics.Text.Digit

/-!
# Settings from the environment

A variable of the environment is text; what it means depends on the kind of
setting that it is for. A list is written with commas, and pieces that are blank
do not count.
-/

namespace JavaMetrics.Settings

/-- The kinds of settings that a variable can be read as. -/
inductive Kind where
  | text
  | boolean
  | integer
  | list
  /-- One of some words; which ones is checked later. -/
  | choice
  /-- A kind that no variable is read as. -/
  | other
deriving DecidableEq, Repr

/-- The items of a list that is written with commas. -/
def listItems (text : String) : List String :=
  (((Text.splitAt ',' text.toList).map Text.strip).filter fun item => !item.isEmpty).map String.ofList

/-- The words for true and false, without regard to case. No character outside of ASCII has one of
their letters as its lower case. -/
def readBoolean (text : String) : Except Failure Bool :=
  let word := String.ofList (text.toList.map Char.toLower)
  if ["true", "1", "yes", "on"].contains word then .ok true
  else if ["false", "0", "no", "off"].contains word then .ok false
  else .error (.notBoolean text)

/-- The value of a variable, if variables are read as this kind. -/
def readVariable (kind : Kind) (text : String) : Except Failure (Option Value) :=
  match kind with
  | .list => .ok (some (.list ((listItems text).map .text)))
  | .boolean => (readBoolean text).map fun b => some (.bool b)
  | .integer =>
    match Text.readInteger text.toList with
    | .ok i => .ok (some (.int i))
    | .error .malformed => .error (.notInteger text)
    | .error (.tooLong digits) => .error (.tooManyDigits digits)
  | .text => .ok (some (.text text))
  | .choice => .ok (some (.text text))
  | .other => .ok none

end JavaMetrics.Settings
