import JavaMetrics.Failure
import JavaMetrics.Text.Blank
import JavaMetrics.Text.CellWidth

/-!
# Console text

What is printed may hold mark-up: a tag in square brackets that begins with a
lower-case letter or one of `#`, `/` and `@` is taken for a style and not
printed. A tag that begins with a slash closes one, and must find it open.
Backslashes before a bracket keep it from being a tag. Printed text is wrapped at
the width of the console.
-/

namespace JavaMetrics.Report

/-- Can a tag begin with this character? -/
def isTagStart (c : Char) : Bool :=
  ('a' ≤ c && c ≤ 'z') || c == '#' || c == '/' || c == '@'

/-- The text of the tag at the front of a text that begins with a bracket, and what comes after
it. A tag ends at the first closing bracket and holds no opening one. -/
def tag? : List Char → Option (List Char × List Char)
  | '[' :: c :: rest =>
    if isTagStart c then
      let inner := rest.takeWhile fun c => c != ']' && c != '['
      match rest.dropWhile fun c => c != ']' && c != '[' with
      | ']' :: after => some (c :: inner, after)
      | _ => none
    else none
  | _ => none

/-- A piece of marked-up text. -/
inductive Piece where
  | plain (text : List Char)
  /-- A tag and where it begins. -/
  | tag (text : List Char) (position : Nat)
deriving Repr

/-- The pieces that a number of backslashes and a tag after them make: two backslashes stand for one,
and a backslash that is left over makes the tag plain text. -/
def escapedTag (backslashes : Nat) (tag : List Char) (position : Nat) : List Piece :=
  let kept := backslashes / 2
  let front := if kept = 0 then [] else [Piece.plain (List.replicate kept '\\')]
  if backslashes % 2 = 1 then front ++ [.plain ('[' :: tag ++ [']'])]
  else front ++ [.tag tag (position + 2 * kept)]

/-- Cuts a text into pieces. `run` holds the plain text so far, latest character first. The first
argument bounds the number of steps. -/
def piecesFrom : Nat → List Char → Nat → List Char → List Piece
  | 0, run, _, cs => [.plain (run.reverse ++ cs)]
  | _, run, _, [] => if run.isEmpty then [] else [.plain run.reverse]
  | steps + 1, run, position, c :: rest =>
    let cs := c :: rest
    let backslashes := (cs.takeWhile (· == '\\')).length
    match tag? (cs.drop backslashes) with
    | some (tag, after) =>
      let front := if run.isEmpty then [] else [Piece.plain run.reverse]
      front ++ escapedTag backslashes tag position ++
        piecesFrom steps [] (position + backslashes + tag.length + 2) after
    | none => piecesFrom steps (c :: run) (position + 1) rest

/-- The pieces of a text. -/
def pieces (cs : List Char) : List Piece :=
  piecesFrom (cs.length + 1) [] 0 cs

/-- A bracket that is no tag may have a backslash before it, which is not printed. -/
def unescape : List Char → List Char
  | '\\' :: '[' :: rest => '[' :: unescape rest
  | c :: rest => c :: unescape rest
  | [] => []

/-- The control characters that are never printed. -/
def isUnprinted (c : Char) : Bool :=
  c.toNat == 7 || c.toNat == 8 || (11 ≤ c.toNat && c.toNat ≤ 13)

/-- The name of a style, without regard to case and to the blanks around it. -/
def styleName (cs : List Char) : List Char :=
  (Text.strip (cs.takeWhile (· != '='))).map Char.toLower

/-- Takes the latest style of a name off the stack. -/
def closeStyle (name : List Char) : List (List Char) → Option (List (List Char))
  | [] => none
  | style :: rest =>
    if style == name then some rest else (closeStyle name rest).map (style :: ·)

/-- The printed text of some pieces. `styles` are the open ones, latest first. -/
def printed (styles : List (List Char)) : List Piece → Except Failure (List Char)
  | [] => .ok []
  | .plain text :: rest => do
    let after ← printed styles rest
    return (unescape text).filter (fun c => !isUnprinted c) ++ after
  | .tag ('/' :: name) position :: rest =>
    let style := styleName name
    if style.isEmpty then
      match styles with
      | [] => .error (.strayClosingTag "[/]" position)
      | _ :: styles => printed styles rest
    else
      match closeStyle style styles with
      | none => .error (.strayClosingTag (String.ofList ('[' :: '/' :: name ++ [']'])) position)
      | some styles => printed styles rest
  | .tag name _ :: rest => printed (styleName name :: styles) rest

/-- The text that marked-up text prints. -/
def plainText (markup : String) : Except Failure (List Char) :=
  printed [] (pieces markup.toList)

/-! ## Wrapping -/

/-- A line with blanks up to the next multiple of eight in the place of every tab. -/
def expandTabs (column : Nat) : List Char → List Char
  | [] => []
  | '\t' :: rest =>
    let width := 8 - column % 8
    List.replicate width ' ' ++ expandTabs (column + width) rest
  | c :: rest => c :: expandTabs (column + Text.cellWidth c) rest

/-- The words of a line, each with the blanks after it, the first one also with those before it. -/
def wordsWithBlanks : Nat → List Char → List (List Char)
  | 0, _ => []
  | steps + 1, cs =>
    let front := cs.takeWhile Text.isBlank
    let rest := cs.drop front.length
    let word := rest.takeWhile fun c => !Text.isBlank c
    let rest := rest.drop word.length
    let blanks := rest.takeWhile Text.isBlank
    if word.isEmpty then []
    else (front ++ word ++ blanks) :: wordsWithBlanks steps (rest.drop blanks.length)

/-- Cuts a word that is too long into pieces of a width. `piece` is the current one. -/
def chop (width : Nat) (piece : List Char) : List Char → List (List Char)
  | [] => [piece]
  | c :: rest =>
    if Text.cells piece + Text.cellWidth c ≤ width then chop width (piece ++ [c]) rest
    else piece :: chop width [c] rest

/-- Lays words out on lines. `line` is the current one. -/
def layWords (width : Nat) (line : List Char) : List (List Char) → List (List Char)
  | [] => [line]
  | word :: rest =>
    let needed := Text.cells (word.reverse.dropWhile Text.isBlank)
    if needed + Text.cells line ≤ width then layWords width (line ++ word) rest
    else if width < needed then
      let parts := chop width [] word
      let full := parts.dropLast
      (if line.isEmpty then full else line :: full) ++ layWords width (parts.getLastD []) rest
    else if line.isEmpty then layWords width word rest
    else line :: layWords width word rest

/-- Takes blanks off the end of a line, of which the latest character comes first, until it has neither
too many characters nor too many cells. -/
def dropBlanks (width : Nat) : List Char → List Char
  | [] => []
  | c :: rest =>
    let fits := rest.length < width && decide (Text.cells (c :: rest) ≤ width)
    if Text.isBlank c && !fits then dropBlanks width rest else c :: rest

/-- A line without those of its last blanks that do not fit. -/
def dropExcess (width : Nat) (line : List Char) : List Char :=
  (dropBlanks width line.reverse).reverse

/-- The number of cells in a line of the console. -/
def consoleWidth : Nat := 80

/-- The lines that a text is printed as. -/
def wrap (text : List Char) : List String :=
  (Text.splitAt '\n' text).flatMap fun line =>
    let line := expandTabs 0 line
    let words := wordsWithBlanks line.length line
    let parts := if words.isEmpty then [line] else layWords consoleWidth [] words
    parts.map fun part => String.ofList (dropExcess consoleWidth part)

/-- The lines that a text is printed as when lines are not wrapped. They keep the blanks at their
end. -/
def unwrapped (text : List Char) : List String :=
  (Text.splitAt '\n' text).map fun line => String.ofList (expandTabs 0 line)

end JavaMetrics.Report
