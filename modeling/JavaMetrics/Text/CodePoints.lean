/-!
# Sets of code points

A property of characters that a standard gives as a long table is kept here as
the sorted list of places where the property changes. A code point has the
property when an odd number of changes lie at or below it, so a table is one
flat array and membership is one binary search.
-/

namespace JavaMetrics.Text

/-- A set of code points, given by its changes: in from the first one on, out from the second, and
so on. The changes are in increasing order. -/
structure CodePoints where
  changes : Array Nat

namespace CodePoints

/-- How many entries of the sorted table from `lo` up to `hi` lie at or below `code`, counted from
the start of the table. -/
def rankFrom (changes : Array Nat) (code lo hi : Nat) : Nat :=
  if h : lo < hi then
    let mid := (lo + hi) / 2
    if changes.getD mid 0 ≤ code then rankFrom changes code (mid + 1) hi
    else rankFrom changes code lo mid
  else lo
termination_by hi - lo

/-- The number of changes at or below a code point. -/
def rank (set : CodePoints) (code : Nat) : Nat :=
  rankFrom set.changes code 0 set.changes.size

/-- Membership of a character. -/
def contains (set : CodePoints) (c : Char) : Bool :=
  set.rank c.toNat % 2 == 1

end CodePoints

end JavaMetrics.Text
