import JavaMetrics.Text.Blank

/-!
# Decimal digits and integers

Every script with decimal digits of its own has ten of them in a row, so the
table lists the zeros. `readInteger` reads an integer in any of these scripts:
white space around it, one sign, and single underscores between digits.
-/

namespace JavaMetrics.Text

/-- The code points of the decimal digit zero in every script, in increasing order. -/
def zeros : List Nat := [
  48, 1632, 1776, 1984, 2406, 2534, 2662, 2790, 2918, 3046, 3174, 3302, 3430, 3558, 3664,
  3792, 3872, 4160, 4240, 6112, 6160, 6470, 6608, 6784, 6800, 6992, 7088, 7232, 7248, 42528,
  43216, 43264, 43472, 43504, 43600, 44016, 65296, 66720, 68912, 69734, 69872, 69942, 70096,
  70384, 70736, 70864, 71248, 71360, 71472, 71904, 72016, 72784, 73040, 73120, 92768, 92864,
  93008, 120782, 120792, 120802, 120812, 120822, 123200, 123632, 125264, 130032]

/-- The value of a decimal digit. -/
def digitValue? (c : Char) : Option Nat :=
  (zeros.find? fun z => z ≤ c.toNat && c.toNat < z + 10).map fun z => c.toNat - z

/-- Why a text is not an integer. -/
inductive IntegerFault where
  /-- It does not have the form of an integer. -/
  | malformed
  /-- It has more digits than are read. -/
  | tooLong (digits : Nat)
deriving DecidableEq, Repr

/-- The number of digits that an integer may have. -/
def digitLimit : Nat := 4300

/-- The digits at the front, latest first, and the text after them. A single underscore may stand
between two digits; `afterDigit` says that one may come now. Nothing when an underscore stands
anywhere else. -/
def readDigits (afterDigit : Bool) (digits : List Nat) : List Char → Option (List Nat × List Char)
  | [] => if afterDigit || digits.isEmpty then some (digits, []) else none
  | c :: cs =>
    match digitValue? c with
    | some d => readDigits true (d :: digits) cs
    | none =>
      if c == '_' then
        if afterDigit then readDigits false digits cs else none
      else if afterDigit || digits.isEmpty then some (digits, c :: cs) else none

/-- The white space that may stand around an integer: that of Unicode without the four information
separators. -/
def isMargin (c : Char) : Bool :=
  isBlank c && !(28 ≤ c.toNat && c.toNat ≤ 31)

/-- Takes a sign off the front: is it a minus? -/
def readSign : List Char → Bool × List Char
  | '-' :: cs => (true, cs)
  | '+' :: cs => (false, cs)
  | cs => (false, cs)

/-- The integer that a text writes. -/
def readInteger (text : List Char) : Except IntegerFault Int :=
  let (negative, cs) := readSign (trimBoth isMargin text)
  match readDigits false [] cs with
  | none => .error .malformed
  | some (digits, rest) =>
    if digits.isEmpty then .error .malformed
    else if digitLimit < digits.length then .error (.tooLong digits.length)
    else if !rest.isEmpty then .error .malformed
    else
      let value : Nat := digits.reverse.foldl (fun n d => 10 * n + d) 0
      .ok (if negative then -value else value)

end JavaMetrics.Text
