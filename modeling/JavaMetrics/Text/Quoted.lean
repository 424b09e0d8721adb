import JavaMetrics.Text.Printable

/-!
# Quoted text

A text as it is shown inside a message: in single quotes, or in double quotes
when it holds a single quote and no double one. The backslash, the quote in use,
line breaks and tabs are written with a backslash, and other characters that
cannot be printed by their code.
-/

namespace JavaMetrics.Text

/-- A code with leading zeros up to a width, in base sixteen. -/
def hexCode (width code : Nat) : List Char :=
  let digits := Nat.toDigits 16 code
  List.replicate (width - digits.length) '0' ++ digits

/-- The quote that a text is shown in. -/
def quoteFor (cs : List Char) : Char :=
  if cs.contains '\'' && !cs.contains '"' then '"' else '\''

/-- A character as it is shown between quotes. -/
def escape (quote c : Char) : List Char :=
  if c == quote || c == '\\' then ['\\', c]
  else if c == '\n' then ['\\', 'n']
  else if c == '\r' then ['\\', 'r']
  else if c == '\t' then ['\\', 't']
  else if isPrintable c then [c]
  else
    let code := c.toNat
    if code < 0x100 then '\\' :: 'x' :: hexCode 2 code
    else if code < 0x10000 then '\\' :: 'u' :: hexCode 4 code
    else '\\' :: 'U' :: hexCode 8 code

/-- A text in quotes. -/
def quoted (text : String) : String :=
  let cs := text.toList
  let quote := quoteFor cs
  String.ofList (quote :: cs.flatMap (escape quote) ++ [quote])

end JavaMetrics.Text
