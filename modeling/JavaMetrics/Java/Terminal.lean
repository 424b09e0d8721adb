import JavaMetrics.Text.IdentifierChar

/-!
# Tokens

A terminal of the grammar says what a token may look like, and `Terminal.length`
how many characters of a text it takes. Which terminals are tried at a place is
for the parser to say: a keyword is a keyword only where the grammar has a use
for it, and is an ordinary identifier elsewhere.
-/

namespace JavaMetrics.Java

/-- The two ways to quote a text. -/
inductive Quoting where
  /-- Between two quotes. -/
  | string
  /-- Between two groups of three quotes. -/
  | block
deriving DecidableEq, Repr

/-- The literals of the language. A text with expressions in it is read in pieces: the expressions
stand between its pieces. -/
inductive Literal where
  | decimalInteger
  | hexInteger
  | octalInteger
  | binaryInteger
  | decimalFloat
  | hexFloat
  | character
  /-- A text without expressions in it. -/
  | text (quoting : Quoting)
  /-- A text up to its first expression. -/
  | textHead (quoting : Quoting)
  /-- A text from one of its expressions to the next one. -/
  | textMiddle (quoting : Quoting)
  /-- A text after its last expression. -/
  | textTail (quoting : Quoting)
deriving DecidableEq, Repr

/-- What a token may be. -/
inductive Terminal where
  /-- A keyword; its node is named when a kind is given. -/
  | word (text : String) (kind : Option String)
  /-- An operator or a separator; its node is named when a kind is given. -/
  | mark (text : String) (kind : Option String)
  /-- The `>` that ends a list of type arguments, also when another `>` follows it. -/
  | closeAngle
  /-- An identifier, as a node of the given kind. -/
  | identifier (kind : String)
  | literal (form : Literal)
deriving DecidableEq, Repr

namespace Literal

/-- The kind of the node that a literal becomes. -/
def kind : Literal → String
  | decimalInteger => "decimal_integer_literal"
  | hexInteger => "hex_integer_literal"
  | octalInteger => "octal_integer_literal"
  | binaryInteger => "binary_integer_literal"
  | decimalFloat => "decimal_floating_point_literal"
  | hexFloat => "hex_floating_point_literal"
  | character => "character_literal"
  | text _ => "string_literal"
  | textHead _ | textMiddle _ | textTail _ => "string_fragment"

def isHexDigit (c : Char) : Bool :=
  c.isDigit || ('a' ≤ c && c ≤ 'f') || ('A' ≤ c && c ≤ 'F')

def isOctalDigit (c : Char) : Bool :=
  '0' ≤ c && c ≤ '7'

def isBinaryDigit (c : Char) : Bool :=
  c == '0' || c == '1'

/-- The length of what continues a row of digits: more digits, each after one underscore at most. -/
def moreDigits (p : Char → Bool) : List Char → Nat
  | [] => 0
  | '_' :: c :: cs => if p c then 2 + moreDigits p cs else 0
  | c :: cs => if p c then 1 + moreDigits p cs else 0

/-- The length of the digits at the front, with single underscores between digits. -/
def digits (p : Char → Bool) : List Char → Nat
  | c :: cs => if p c then 1 + moreDigits p cs else 0
  | [] => 0

/-- The length of the decimal digits at the front, with any number of underscores between digits. -/
def spacedDigits (cs : List Char) : Nat :=
  match cs with
  | c :: _ =>
    if c.isDigit then
      ((cs.takeWhile fun c => c.isDigit || c == '_').reverse.dropWhile (· == '_')).length
    else 0
  | [] => 0

/-- The length of a number without leading zero: a zero alone, or digits that begin with another
one. After the first digit there is one underscore at most. -/
def plainDigits (cs : List Char) : Nat :=
  match cs with
  | '0' :: _ => 1
  | c :: rest =>
    if c.isDigit then
      let lead := if rest.head? == some '_' then 1 else 0
      let run := spacedDigits (rest.drop lead)
      if run = 0 then 1 else 1 + lead + run
    else 0
  | [] => 0

/-- One when the text begins with a character of the class, else zero. -/
def optionally (p : Char → Bool) : List Char → Nat
  | c :: _ => if p c then 1 else 0
  | [] => 0

def isLongSuffix (c : Char) : Bool := c == 'l' || c == 'L'

def isFloatSuffix (c : Char) : Bool := c == 'f' || c == 'F' || c == 'd' || c == 'D'

def isSign (c : Char) : Bool := c == '+' || c == '-'

/-- The length of an exponent, zero when there is none: its letter, a sign if any, digits. -/
def exponent (letter : Char → Bool) : List Char → Nat
  | c :: cs =>
    if letter c then
      let sign := optionally isSign cs
      let run := digits Char.isDigit (cs.drop sign)
      if run = 0 then 0 else 1 + sign + run
    else 0
  | [] => 0

def isExponentLetter (c : Char) : Bool := c == 'e' || c == 'E'

def isBinaryExponentLetter (c : Char) : Bool := c == 'p' || c == 'P'

/-- A number in a base that its prefix names: the prefix, digits, and the suffix of a long one. -/
def based (letter : Char → Bool) (p : Char → Bool) : List Char → Nat
  | '0' :: c :: cs =>
    if letter c then
      let run := digits p cs
      if run = 0 then 0 else 2 + run + optionally isLongSuffix (cs.drop run)
    else 0
  | _ => 0

/-- What may follow the digits of a fractional number: an exponent and the suffix of its type. -/
def floatTail (cs : List Char) : Nat :=
  let e := exponent isExponentLetter cs
  e + optionally isFloatSuffix (cs.drop e)

/-- A number with a fraction, an exponent or the suffix of a floating-point type. -/
def decimalFloatLength (cs : List Char) : Nat :=
  let whole := digits Char.isDigit cs
  match cs.drop whole with
  | '.' :: fraction =>
    let run := digits Char.isDigit fraction
    if whole = 0 && run = 0 then 0
    else whole + 1 + run + floatTail (fraction.drop run)
  | _ =>
    let plain := plainDigits cs
    let tail := floatTail (cs.drop plain)
    if plain = 0 || tail = 0 then 0 else plain + tail

/-- A hexadecimal number with a fraction or a binary exponent. -/
def hexFloatLength : List Char → Nat
  | '0' :: c :: cs =>
    if c == 'x' || c == 'X' then
      let whole := digits isHexDigit cs
      let afterWhole := cs.drop whole
      let point := optionally (· == '.') afterWhole
      let fraction := if point = 0 then 0 else digits isHexDigit (afterWhole.drop 1)
      let body := whole + point + fraction
      let e := exponent isBinaryExponentLetter (cs.drop body)
      if whole + fraction = 0 || point + e = 0 then 0
      else 2 + body + e + (if e = 0 then 0 else optionally isFloatSuffix (cs.drop (body + e)))
    else 0
  | _ => 0

/-- The characters up to and with the quote that closes a character, where a backslash takes the
next character with it. Nothing when the quote does not stand on the same line. -/
def characterEnd : List Char → Option Nat
  | [] => none
  | '\\' :: _ :: cs => (characterEnd cs).map (· + 2)
  | c :: cs =>
    if c == '\'' then some 1
    else if c == '\\' || c == '\n' then none
    else (characterEnd cs).map (· + 1)

/-- How many characters after a backslash belong to it, zero when it cannot stand there. In a text
block a backslash takes any character with it. -/
def escapeLength (quoting : Quoting) (cs : List Char) : Nat :=
  match quoting, cs with
  | _, [] => 0
  | .block, _ :: _ => 1
  | .string, 'x' :: cs => if 2 ≤ (cs.takeWhile isHexDigit).length then 3 else 0
  | .string, 'u' :: cs =>
    if 4 ≤ (cs.takeWhile isHexDigit).length then 5
    else if cs.head? == some '\x7b' then
      let run := ((cs.drop 1).takeWhile isHexDigit).length
      if 0 < run && (cs.drop (1 + run)).head? == some '\x7d' then run + 3 else 0
    else 0
  | .string, _ :: _ => 1

/-- What ends a piece of a text. -/
inductive PieceEnd where
  /-- The text ends. -/
  | quotes
  /-- An expression begins. -/
  | expression
deriving DecidableEq, Repr

/-- The quotes around a text. -/
def quotes : Quoting → List Char
  | .string => ['"']
  | .block => ['"', '"', '"']

/-- The number of characters of a piece of a text up to and with its end, and what ends it. The
first `skipped` characters are part of the piece, whatever they are. Nothing when the piece does
not end. -/
def pieceEnd (quoting : Quoting) (skipped : Nat) : List Char → Option (Nat × PieceEnd)
  | [] => none
  | c :: cs =>
    match skipped with
    | more + 1 => (pieceEnd quoting more cs).map fun (n, e) => (n + 1, e)
    | 0 =>
      if (quotes quoting).isPrefixOf (c :: cs) then some ((quotes quoting).length, .quotes)
      else if c == '\\' then
        if cs.head? == some '\x7b' then some (2, .expression)
        else
          match escapeLength quoting cs with
          | 0 => none
          | n => (pieceEnd quoting n cs).map fun (n, e) => (n + 1, e)
      else (pieceEnd quoting 0 cs).map fun (n, e) => (n + 1, e)

/-- The length of a piece with the given end, after an opening of some characters. -/
def pieceLength (quoting : Quoting) (expected : PieceEnd) (opening : Nat) (cs : List Char) : Nat :=
  match pieceEnd quoting 0 (cs.drop opening) with
  | some (n, found) => if found = expected then opening + n else 0
  | none => 0

/-- Does a text begin here? Three quotes begin a text block and nothing else. -/
def opens (quoting : Quoting) (cs : List Char) : Bool :=
  match quoting with
  | .string => cs.head? == some '"' && !(quotes .block).isPrefixOf cs
  | .block => (quotes .block).isPrefixOf cs

/-- The length of the piece that begins with the quotes and has the given end. -/
def firstPiece (quoting : Quoting) (expected : PieceEnd) (cs : List Char) : Nat :=
  if opens quoting cs then pieceLength quoting expected (quotes quoting).length cs else 0

/-- The length of the piece that begins after an expression and has the given end. -/
def laterPiece (quoting : Quoting) (expected : PieceEnd) (cs : List Char) : Nat :=
  if cs.head? == some '\x7d' then pieceLength quoting expected 1 cs else 0

/-- How many characters of the text this literal takes, zero when it is not there. -/
def length : Literal → List Char → Nat
  | decimalInteger, cs =>
    let run := plainDigits cs
    if run = 0 then 0 else run + optionally isLongSuffix (cs.drop run)
  | hexInteger, cs => based (fun c => c == 'x' || c == 'X') isHexDigit cs
  | binaryInteger, cs => based (fun c => c == 'b' || c == 'B') isBinaryDigit cs
  | octalInteger, cs =>
    match cs with
    | '0' :: rest =>
      let letter := optionally (fun c => c == 'o' || c == 'O') rest
      let run := digits isOctalDigit (rest.drop letter)
      if run = 0 then 0
      else 1 + letter + run + optionally isLongSuffix (rest.drop (letter + run))
    | _ => 0
  | decimalFloat, cs => decimalFloatLength cs
  | hexFloat, cs => hexFloatLength cs
  | character, cs =>
    match cs with
    | '\'' :: rest =>
      match characterEnd rest with
      | some n => if n ≤ 1 then 0 else n + 1
      | none => 0
    | _ => 0
  | text quoting, cs => firstPiece quoting .quotes cs
  | textHead quoting, cs => firstPiece quoting .expression cs
  | textMiddle quoting, cs => laterPiece quoting .expression cs
  | textTail quoting, cs => laterPiece quoting .quotes cs

end Literal

/-- The identifier at the front of a text, empty when there is none. -/
def leadingWord : List Char → String
  | c :: cs =>
    if Text.isIdentifierStart c then String.ofList (c :: cs.takeWhile Text.isIdentifierPart) else ""
  | [] => ""

namespace Terminal

/-- How many characters of the text this terminal takes, zero when it does not match. `word` is the
identifier at the front of the text, `reserved` says that it is a keyword here. -/
def length (t : Terminal) (word : String) (reserved : Bool) (cs : List Char) : Nat :=
  match t with
  | .word text _ => if text == word then text.length else 0
  | .mark text _ => if text.toList.isPrefixOf cs then text.length else 0
  | .closeAngle => if cs.head? == some '>' then 1 else 0
  | .identifier _ => if reserved then 0 else word.length
  | .literal form => form.length cs

/-- The kind of the node that a token becomes, and whether it is a named node. -/
def node : Terminal → String × Bool
  | .word text kind => (kind.getD text, kind.isSome)
  | .mark text kind => (kind.getD text, kind.isSome)
  | .closeAngle => (">", false)
  | .identifier kind => (kind, true)
  | .literal form => (form.kind, true)

end Terminal

end JavaMetrics.Java
