/-!
# Blanks

The white space of Unicode, which settings and names are stripped of, and the
two operations on it: `strip` takes it off both ends, `words` cuts at it. The
narrower notion of blank that line counting uses, everything up to U+0020, is
`isControl`.
-/

namespace JavaMetrics.Text

/-- White space in the sense of Unicode, with the four information separators. -/
def isBlank (c : Char) : Bool :=
  let n := c.toNat
  (9 ≤ n && n ≤ 13) || (28 ≤ n && n ≤ 32) || n == 0x85 || n == 0xA0 || n == 0x1680 ||
    (0x2000 ≤ n && n ≤ 0x200A) || n == 0x2028 || n == 0x2029 || n == 0x202F || n == 0x205F ||
    n == 0x3000

/-- The control characters and the space. -/
def isControl (c : Char) : Bool :=
  c.toNat ≤ 32

/-- The text without the characters of a class at its two ends. -/
def trimBoth (p : Char → Bool) (cs : List Char) : List Char :=
  ((cs.dropWhile p).reverse.dropWhile p).reverse

/-- The text without the white space at its two ends. -/
def strip (cs : List Char) : List Char :=
  trimBoth isBlank cs

/-- The maximal runs of characters outside a class, in order. `run` holds the current one, latest
character first. -/
def runsFrom (p : Char → Bool) (run : List Char) : List Char → List (List Char)
  | [] => if run.isEmpty then [] else [run.reverse]
  | c :: cs =>
    if p c then
      if run.isEmpty then runsFrom p [] cs else run.reverse :: runsFrom p [] cs
    else runsFrom p (c :: run) cs

/-- The pieces of a text between its white space. -/
def words (cs : List Char) : List (List Char) :=
  runsFrom isBlank [] cs

/-- The pieces of a text between the occurrences of one character; a text without it is one
piece. `piece` holds the current one, latest character first. -/
def splitFrom (sep : Char) (piece : List Char) : List Char → List (List Char)
  | [] => [piece.reverse]
  | c :: cs => if c == sep then piece.reverse :: splitFrom sep [] cs else splitFrom sep (c :: piece) cs

/-- The pieces of a text between the occurrences of one character. -/
def splitAt (sep : Char) (cs : List Char) : List (List Char) :=
  splitFrom sep [] cs

/-- The lines of a text; a final line break is followed by an empty line. -/
def lines (text : String) : List String :=
  (splitAt '\n' text.toList).map String.ofList

end JavaMetrics.Text
