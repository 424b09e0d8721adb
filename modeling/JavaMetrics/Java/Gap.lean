import JavaMetrics.Syntax.Node

/-!
# What stands between two tokens

White space and comments. White space is dropped; every comment becomes a node.
A block comment that is never closed is no comment, and the text before it ends
the gap.
-/

namespace JavaMetrics.Java

/-- The white space between tokens. -/
def isSpace (c : Char) : Bool :=
  c == ' ' || (9 ≤ c.toNat && c.toNat ≤ 13)

/-- The number of characters of a comment at the front of a text up to and with its end, when it
is closed; the opening is already taken. -/
def blockCommentLength : List Char → Option Nat
  | [] => none
  | '*' :: '/' :: _ => some 2
  | _ :: cs => (blockCommentLength cs).map (· + 1)

/-- The number of bytes of some characters. -/
def byteLength (cs : List Char) : Nat :=
  cs.foldl (fun n c => n + c.utf8Size) 0

/-- The comment at the front of a text: its kind, and its number of characters. -/
def comment? : List Char → Option (String × Nat)
  | '/' :: '/' :: cs => some ("line_comment", 2 + (cs.takeWhile (· != '\n')).length)
  | '/' :: '*' :: cs => (blockCommentLength cs).map fun n => ("block_comment", 2 + n)
  | _ => none

/-- The white space and the comments in front of a token. -/
structure Gap where
  /-- The comments in order. -/
  comments : List Node
  /-- The offset of the first byte after the gap. -/
  stop : Nat
  /-- The text after the gap. -/
  rest : List Char

/-- Reads a gap at an offset. `comments` holds the comments so far, latest first, and `inside` is the
number of characters that are left of the latest one. -/
def Gap.readFrom (inside : Nat) (comments : List Node) (offset : Nat) : List Char → Gap
  | [] => ⟨comments.reverse, offset, []⟩
  | c :: rest =>
    match inside with
    | left + 1 => Gap.readFrom left comments (offset + c.utf8Size) rest
    | 0 =>
      if isSpace c then Gap.readFrom 0 comments (offset + c.utf8Size) rest
      else
        match comment? (c :: rest) with
        | none => ⟨comments.reverse, offset, c :: rest⟩
        | some (kind, n) =>
          let stop := offset + byteLength ((c :: rest).take n)
          Gap.readFrom (n - 1) ({ kind, start := offset, stop } :: comments)
            (offset + c.utf8Size) rest

/-- Reads the gap at the front of a text that begins at an offset. -/
def Gap.read (offset : Nat) (cs : List Char) : Gap :=
  Gap.readFrom 0 [] offset cs

end JavaMetrics.Java
