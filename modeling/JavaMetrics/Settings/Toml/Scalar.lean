import JavaMetrics.Settings.Value

/-!
# TOML: keys and simple values

Readers of strings, numbers, dates and times. A reader takes what it knows off
the front of a text, or refuses the text; what is wrong with a text is not told.
-/

namespace JavaMetrics.Settings.Toml

open Number (Binary64)

/-- Takes a value off the front of a text. -/
abbrev Reader (α : Type) := List Char → Option (α × List Char)

/-- The blanks within a line. -/
def isBlank (c : Char) : Bool := c == ' ' || c == '\t'

/-- The blanks between the lines of an array. -/
def isBlankOrBreak (c : Char) : Bool := isBlank c || c == '\n'

/-- The text after the blanks at its front. -/
def skipBlanks (cs : List Char) : List Char := cs.dropWhile isBlank

/-- The characters that may not be written as they are. -/
def isForbidden (multiline : Bool) (c : Char) : Bool :=
  (c.toNat < 32 || c.toNat == 127) && c != '\t' && !(multiline && c == '\n')

/-- The text after a comment, if there is one at the front; it ends before the line does. -/
def skipComment (cs : List Char) : Option (List Char) :=
  match cs with
  | '#' :: rest =>
    let comment := rest.takeWhile (· != '\n')
    if comment.any (isForbidden false) then none else some (rest.dropWhile (· != '\n'))
  | _ => some cs

/-! ## Strings -/

def isHexDigit (c : Char) : Bool :=
  c.isDigit || ('a' ≤ c && c ≤ 'f') || ('A' ≤ c && c ≤ 'F')

/-- The value of a digit of any base up to sixteen. -/
def digitValue (c : Char) : Nat :=
  if c.isDigit then c.toNat - '0'.toNat
  else if 'a' ≤ c then c.toNat - 'a'.toNat + 10
  else c.toNat - 'A'.toNat + 10

/-- The number that digits write in a base. -/
def numberOf (base : Nat) (digits : List Char) : Nat :=
  digits.foldl (fun n c => base * n + digitValue c) 0

/-- The character with a code of so many digits in base sixteen. -/
def codePoint (width : Nat) : Reader Char := fun cs =>
  let digits := cs.take width
  let code := numberOf 16 digits
  if digits.length = width && digits.all isHexDigit && Nat.isValidChar code then
    some (Char.ofNat code, cs.drop width)
  else none

/-- What a backslash and the characters after it stand for. -/
def escaped : Reader Char
  | 'b' :: cs => some (Char.ofNat 8, cs)
  | 't' :: cs => some ('\t', cs)
  | 'n' :: cs => some ('\n', cs)
  | 'f' :: cs => some (Char.ofNat 12, cs)
  | 'r' :: cs => some ('\r', cs)
  | '"' :: cs => some ('"', cs)
  | '\\' :: cs => some ('\\', cs)
  | 'u' :: cs => codePoint 4 cs
  | 'U' :: cs => codePoint 8 cs
  | _ => none

/-- After a backslash that ends a line: the text from the next character that is not blank. The end
of the text may take the place of the line's end. -/
def continued (cs : List Char) : Option (List Char) :=
  match skipBlanks cs with
  | [] => some []
  | '\n' :: rest => some (rest.dropWhile isBlankOrBreak)
  | _ => none

/-- A string in double quotes up to its end, after the opening. `out` holds the characters so far,
latest first. The first argument bounds the number of steps. -/
def basicFrom (multiline : Bool) : Nat → List Char → Reader (List Char)
  | 0, _, _ => none
  | steps + 1, out, cs =>
    match cs with
    | [] => none
    | '"' :: rest =>
      if multiline then
        match rest with
        | '"' :: '"' :: after => some (out.reverse, after)
        | _ => basicFrom multiline steps ('"' :: out) rest
      else some (out.reverse, rest)
    | '\\' :: rest =>
      if multiline && (rest.head?.map isBlankOrBreak).getD false then
        (continued rest).bind fun after => basicFrom multiline steps out after
      else (escaped rest).bind fun (c, after) => basicFrom multiline steps (c :: out) after
    | c :: rest =>
      if isForbidden multiline c then none else basicFrom multiline steps (c :: out) rest

/-- A string in three single quotes up to its end, after the opening. -/
def longLiteralFrom : List Char → Reader (List Char)
  | out, '\'' :: '\'' :: '\'' :: rest => some (out.reverse, rest)
  | out, c :: rest => if isForbidden true c then none else longLiteralFrom (c :: out) rest
  | _, [] => none

/-- Up to two more quotes after the closing ones belong to the string. -/
def extraQuotes (quote : Char) (text : List Char) : List Char → List Char × List Char
  | a :: b :: rest =>
    if a == quote && b == quote then (text ++ [quote, quote], rest)
    else if a == quote then (text ++ [quote], b :: rest)
    else (text, a :: b :: rest)
  | [a] => if a == quote then (text ++ [quote], []) else (text, [a])
  | [] => (text, [])

/-- The text after a line break at its front. -/
def skipBreak : List Char → List Char
  | '\n' :: rest => rest
  | cs => cs

/-- A string on one line in single quotes, after the opening. -/
def literalString : Reader String := fun cs =>
  let text := cs.takeWhile (· != '\'')
  match cs.dropWhile (· != '\'') with
  | _ :: rest => if text.any (isForbidden false) then none else some (String.ofList text, rest)
  | [] => none

/-- A string on one line in double quotes, after the opening. -/
def basicString : Reader String := fun cs =>
  (basicFrom false (cs.length + 1) [] cs).map fun (text, rest) => (String.ofList text, rest)

/-- A string of any form. -/
def string : Reader String
  | '"' :: '"' :: '"' :: rest =>
    let body := skipBreak rest
    (basicFrom true (body.length + 1) [] body).map fun (text, after) =>
      let (text, after) := extraQuotes '"' text after
      (String.ofList text, after)
  | '\'' :: '\'' :: '\'' :: rest =>
    (longLiteralFrom [] (skipBreak rest)).map fun (text, after) =>
      let (text, after) := extraQuotes '\'' text after
      (String.ofList text, after)
  | '"' :: rest => basicString rest
  | '\'' :: rest => literalString rest
  | _ => none

/-! ## Keys -/

def isBareKeyChar (c : Char) : Bool := c.isAlphanum || c == '-' || c == '_'

/-- One part of a key. -/
def keyPart : Reader String
  | '\'' :: rest => literalString rest
  | '"' :: rest => basicString rest
  | cs =>
    let part := cs.takeWhile isBareKeyChar
    if part.isEmpty then none else some (String.ofList part, cs.dropWhile isBareKeyChar)

/-- A key: parts with dots between them, and blanks around these. The first argument bounds the
number of parts. -/
def keyFrom : Nat → Reader (List String)
  | 0, _ => none
  | steps + 1, cs =>
    (keyPart cs).bind fun (part, rest) =>
      match skipBlanks rest with
      | '.' :: more =>
        (keyFrom steps (skipBlanks more)).map fun (parts, after) => (part :: parts, after)
      | after => some ([part], after)

/-- A key with the blanks after it. -/
def key : Reader (List String) := fun cs => keyFrom (cs.length + 1) cs

/-! ## Numbers -/

/-- Digits after a digit: an underscore may stand before each. -/
def digitTail (p : Char → Bool) : List Char → List Char × List Char
  | [] => ([], [])
  | [c] => if p c then ([c], []) else ([], [c])
  | c :: d :: rest =>
    if p c then
      let (digits, after) := digitTail p (d :: rest)
      (c :: digits, after)
    else if c == '_' && p d then
      let (digits, after) := digitTail p rest
      (d :: digits, after)
    else ([], c :: d :: rest)

/-- Digits with single underscores between them, none when the text does not begin with a digit. -/
def digitRun (p : Char → Bool) (cs : List Char) : List Char × List Char :=
  match cs with
  | c :: rest =>
    if p c then
      let (digits, after) := digitTail p rest
      (c :: digits, after)
    else ([], cs)
  | [] => ([], [])

/-- An integer in a base that its first two characters name. -/
def basedInteger : Reader Value
  | '0' :: letter :: rest =>
    let (base, p) : Nat × (Char → Bool) :=
      if letter == 'x' then (16, isHexDigit)
      else if letter == 'b' then (2, fun c => c == '0' || c == '1')
      else if letter == 'o' then (8, fun c => '0' ≤ c && c ≤ '7')
      else (0, fun _ => false)
    let (digits, after) := digitRun p rest
    if digits.isEmpty then none else some (.int (numberOf base digits), after)
  | _ => none

/-- The sign at the front: is it a minus? -/
def sign : List Char → Bool × List Char
  | '-' :: cs => (true, cs)
  | '+' :: cs => (false, cs)
  | cs => (false, cs)

/-- The digits before the point: a zero alone, or a number that does not begin with one. -/
def wholePart : List Char → List Char × List Char
  | '0' :: rest => (['0'], rest)
  | cs => digitRun Char.isDigit cs

/-- The digits after the point, none when there is no point with digits after it. -/
def fractionPart : List Char → List Char × List Char
  | '.' :: rest =>
    let (digits, after) := digitRun Char.isDigit rest
    if digits.isEmpty then ([], '.' :: rest) else (digits, after)
  | cs => ([], cs)

/-- The exponent, if there is one. -/
def exponentPart (cs : List Char) : Option Int × List Char :=
  match cs with
  | e :: rest =>
    if e == 'e' || e == 'E' then
      let (negative, rest) := sign rest
      let (digits, after) := digitRun Char.isDigit rest
      let size : Int := numberOf 10 digits
      if digits.isEmpty then (none, cs) else (some (if negative then -size else size), after)
    else (none, cs)
  | [] => (none, [])

/-- The number of digits that a decimal integer may have. -/
def integerLimit : Nat := 4300

/-- A decimal integer, or a number with a fraction or an exponent. -/
def decimalNumber : Reader Value := fun cs =>
  let (negative, unsigned) := sign cs
  let (whole, afterWhole) := wholePart unsigned
  let (fraction, afterFraction) := fractionPart afterWhole
  let (exponent, after) := exponentPart afterFraction
  if whole.isEmpty then none
  else if fraction.isEmpty && exponent.isNone then
    let size : Int := numberOf 10 whole
    if integerLimit < whole.length then none
    else some (.int (if negative then -size else size), after)
  else
    let digits := numberOf 10 (whole ++ fraction)
    some (.float (Binary64.ofDecimal negative digits (exponent.getD 0 - fraction.length)), after)

/-- An infinity or what is not a number, with a sign or without. -/
def specialFloat : Reader Value := fun cs =>
  let (negative, unsigned) := sign cs
  match unsigned with
  | 'i' :: 'n' :: 'f' :: rest => some (.float (Binary64.infinity negative), rest)
  | 'n' :: 'a' :: 'n' :: rest => some (.float (Binary64.nan negative), rest)
  | _ => none

/-! ## Dates and times -/

/-- A number of exactly so many digits that lies between two bounds. -/
def fixedNumber (width low high : Nat) : Reader Nat := fun cs =>
  let digits := cs.take width
  let n := numberOf 10 digits
  if digits.length = width && digits.all Char.isDigit && low ≤ n && n ≤ high then
    some (n, cs.drop width)
  else none

/-- A character that has to be there. -/
def exactly (c : Char) : Reader Unit
  | d :: rest => if c == d then some ((), rest) else none
  | [] => none

/-- The microseconds after a point; digits beyond the sixth are dropped. -/
def microseconds : List Char → Nat × List Char
  | '.' :: rest =>
    let digits := rest.takeWhile Char.isDigit
    if digits.isEmpty then (0, '.' :: rest)
    else (numberOf 10 ((digits ++ List.replicate 6 '0').take 6), rest.dropWhile Char.isDigit)
  | cs => (0, cs)

/-- A time of day. -/
def timeOfDay : Reader Time := fun cs => do
  let (hour, cs) ← fixedNumber 2 0 23 cs
  let (_, cs) ← exactly ':' cs
  let (minute, cs) ← fixedNumber 2 0 59 cs
  let (_, cs) ← exactly ':' cs
  let (second, cs) ← fixedNumber 2 0 59 cs
  let (microsecond, cs) := microseconds cs
  return (⟨hour, minute, second, microsecond⟩, cs)

/-- An offset from universal time in minutes, if there is one. -/
def timeOffset (cs : List Char) : Option Int × List Char :=
  match cs with
  | 'Z' :: rest => (some 0, rest)
  | 'z' :: rest => (some 0, rest)
  | c :: rest =>
    if c == '+' || c == '-' then
      let read : Option (Int × List Char) := do
        let (hours, rest) ← fixedNumber 2 0 23 rest
        let (_, rest) ← exactly ':' rest
        let (minutes, rest) ← fixedNumber 2 0 59 rest
        let size : Int := hours * 60 + minutes
        return (if c == '-' then -size else size, rest)
      match read with
      | some (offset, after) => (some offset, after)
      | none => (none, cs)
    else (none, cs)
  | [] => (none, [])

/-- The numbers of a date, which may still be no date. -/
def dateNumbers : Reader Date := fun cs => do
  let (year, cs) ← fixedNumber 4 0 9999 cs
  let (_, cs) ← exactly '-' cs
  let (month, cs) ← fixedNumber 2 1 12 cs
  let (_, cs) ← exactly '-' cs
  let (day, cs) ← fixedNumber 2 1 31 cs
  return (⟨year, month, day⟩, cs)

/-- The number of days of a month. -/
def daysOfMonth (year month : Nat) : Nat :=
  if month = 2 then
    if year % 4 = 0 && (year % 100 != 0 || year % 400 = 0) then 29 else 28
  else if month = 4 || month = 6 || month = 9 || month = 11 then 30
  else 31

/-- Is there such a date? -/
def isDate (d : Date) : Bool :=
  1 ≤ d.year && d.day ≤ daysOfMonth d.year d.month

/-- The time after a date, if there is one, and what it makes of the date. -/
def withTime (d : Date) (cs : List Char) : Value × List Char :=
  match cs with
  | c :: rest =>
    if c == 'T' || c == 't' || c == ' ' then
      match timeOfDay rest with
      | some (t, after) =>
        let (offset, after) := timeOffset after
        (.dateTime d t offset, after)
      | none => (.date d, cs)
    else (.date d, cs)
  | [] => (.date d, [])

/-- A number, a date or a time. What looks like a date has to be one. -/
def numberOrDate : Reader Value := fun cs =>
  match dateNumbers cs with
  | some (d, rest) => if isDate d then some (withTime d rest) else none
  | none =>
    match timeOfDay cs with
    | some (t, rest) => some (.time t, rest)
    | none => (basedInteger cs).or ((decimalNumber cs).or (specialFloat cs))

end JavaMetrics.Settings.Toml
