import JavaMetrics.Number.Rounding

/-!
# Rounded sums

The sum of natural numbers as binary64 addition gives it, for numbers that may be
too large to be exact. The order of the additions is fixed: up to 128 numbers go
round eight accumulators, and longer lists are cut in two.
-/

namespace JavaMetrics.Number

/-- The number of 53 significant bits nearest to a natural number. -/
def round53 (n : Nat) : Nat :=
  if n < twoPow 53 then n
  else
    let unit := twoPow (n.log2 - 52)
    roundDiv n unit * unit

/-- The rounded sum of two numbers. -/
def addRounded (a b : Nat) : Nat :=
  round53 (a + b)

/-- The numbers added to a start one after the other. -/
def sumFrom (start : Nat) (numbers : List Nat) : Nat :=
  numbers.foldl addRounded start

/-- Adds groups of eight numbers to eight accumulators; gives these, and the numbers that are left.
The first argument bounds the number of groups. -/
def accumulate : Nat → List Nat → List Nat → List Nat × List Nat
  | 0, lanes, numbers => (lanes, numbers)
  | groups + 1, lanes, numbers =>
    if numbers.length < 8 then (lanes, numbers)
    else accumulate groups (List.zipWith addRounded lanes (numbers.take 8)) (numbers.drop 8)

/-- The sums of neighbours. -/
def addNeighbours : List Nat → List Nat
  | a :: b :: rest => addRounded a b :: addNeighbours rest
  | rest => rest

/-- The sum of at least eight numbers by way of eight accumulators. -/
def sumByEight (numbers : List Nat) : Nat :=
  let (lanes, rest) := accumulate numbers.length (numbers.take 8) (numbers.drop 8)
  sumFrom ((addNeighbours (addNeighbours (addNeighbours lanes))).headD 0) rest

/-- The sum of numbers, of which long lists are cut in two. The first argument bounds the number of
cuts. -/
def sumBlocks : Nat → List Nat → Nat
  | 0, numbers => sumByEight numbers
  | cuts + 1, numbers =>
    let n := numbers.length
    if n < 8 then sumFrom 0 numbers
    else if n ≤ 128 then sumByEight numbers
    else
      let half := n / 2 - n / 2 % 8
      addRounded (sumBlocks cuts (numbers.take half)) (sumBlocks cuts (numbers.drop half))

/-- The rounded sum of natural numbers. -/
def pairwiseSum (numbers : List Nat) : Nat :=
  sumBlocks numbers.length (numbers.map round53)

end JavaMetrics.Number
