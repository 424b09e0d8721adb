import JavaMetrics.Number.Binary64

/-!
# The fewest digits that read back

`Decimal.shortest` finds the decimal with the fewest digits among those that
round to a given number, and of those the one nearest to it. For each count of
digits it looks at the two neighbours of the value on the grid of decimals with
that many digits; the first grid on which one of them reads back is taken.

`Binary64.text` writes it out: positionally from 0.0001 up to sixteen places
before the point, and with an exponent outside.
-/

namespace JavaMetrics.Number

/-- The positive decimal `digits * 10 ^ exponent`. -/
structure Decimal where
  digits : Nat
  exponent : Int
deriving DecidableEq, Repr

namespace Decimal

/-- `num / den * 10 ^ k` as a quotient. -/
def scaleRatio (num den : Nat) (k : Int) : Nat × Nat :=
  if k < 0 then (num, den * tenPow (-k).toNat) else (num * tenPow k.toNat, den)

/-- Is `10 ^ k ≤ num / den`? -/
def powerLe (k : Int) (num den : Nat) : Bool :=
  let (n, d) := scaleRatio num den (-k)
  d ≤ n

/-- The power of ten of the leading digit of a positive quotient. The estimate from the binary
logarithms is at most two too low. -/
def leadingPower (num den : Nat) : Int :=
  let binary : Int := (num.log2 : Int) - den.log2 - 1
  let low := Int.fdiv (binary * 30103) 100000
  if powerLe (low + 2) num den then low + 2
  else if powerLe (low + 1) num den then low + 1
  else if powerLe low num den then low
  else low - 1

/-- An interval around a quotient, all over one denominator. -/
structure Interval where
  low : Nat
  value : Nat
  high : Nat
  den : Nat
  /-- Do the two ends belong to it? -/
  closed : Bool

/-- The numbers that round to `x`, a positive finite number. Below a power of two the neighbour is
only half as far away. -/
def Interval.around (x : Binary64) : Interval :=
  let m := x.significand
  let (num, den) := x.ratio
  let unit := num / m
  let down := if m = twoPow 52 && 0 < x.scale then 1 else 2
  { low := 4 * num - down * unit, value := 4 * num, high := 4 * num + 2 * unit, den := 4 * den
    closed := m % 2 == 0 }

/-- Does `digits * 10 ^ exponent` lie in the interval? -/
def Interval.contains (i : Interval) (digits : Nat) (exponent : Int) : Bool :=
  let (n, d) := scaleRatio digits 1 exponent
  let here := n * i.den
  let low := i.low * d
  let high := i.high * d
  if i.closed then low ≤ here && here ≤ high else low < here && here < high

/-- The better of the two neighbours of the value on the grid of a power of ten, if one of them
lies in the interval. A tie goes to the even one. -/
def onGrid? (i : Interval) (exponent : Int) : Option Decimal :=
  let (n, d) := scaleRatio i.value i.den (-exponent)
  let below := n / d
  let fits := i.contains below exponent
  let fitsAbove := i.contains (below + 1) exponent
  if fits && fitsAbove then some ⟨roundDiv n d, exponent⟩
  else if fits then some ⟨below, exponent⟩
  else if fitsAbove then some ⟨below + 1, exponent⟩
  else none

/-- The first of the grids with `count`, `count + 1`, … digits on which a neighbour reads back. The
grid that the search ends with has seventeen digits, which always suffice. -/
def search (i : Interval) (power : Int) : Nat → Nat → Decimal
  | 0, count =>
    let (n, d) := scaleRatio i.value i.den (count - 1 - power)
    ⟨roundDiv n d, power - count + 1⟩
  | steps + 1, count =>
    match onGrid? i (power - count + 1) with
    | some decimal => decimal
    | none => search i power steps (count + 1)

/-- The shortest decimal that reads back as `x`, a positive finite number. -/
def shortest (x : Binary64) : Decimal :=
  let i := Interval.around x
  search i (leadingPower i.value i.den) 16 1

end Decimal

/-- The decimal digits of a number without the zeros at its end. -/
def significantDigits (n : Nat) : List Char :=
  ((Nat.toDigits 10 n).reverse.dropWhile (· == '0')).reverse

/-- Digits with a point after the first `places` of them, filled up with zeros on either side. -/
def positional (digits : List Char) (places : Int) : List Char :=
  if places ≤ 0 then
    ['0', '.'] ++ List.replicate (-places).toNat '0' ++ digits
  else
    let whole := digits.take places.toNat
    let fraction := digits.drop places.toNat
    whole ++ List.replicate (places.toNat - whole.length) '0' ++ ['.'] ++
      (if fraction.isEmpty then ['0'] else fraction)

/-- An exponent with its sign and at least two digits. -/
def exponentText (e : Int) : List Char :=
  let digits := Nat.toDigits 10 e.natAbs
  [if e < 0 then '-' else '+'] ++ (if digits.length < 2 then ['0'] else []) ++ digits

/-- The text of a number: the fewest digits that read back. -/
def Binary64.text (x : Binary64) : String :=
  let unsigned :=
    if x.isNaN then "nan".toList
    else if x.isInfinite then "inf".toList
    else if x.isZero then "0.0".toList
    else
      let decimal := Decimal.shortest x
      let digits := significantDigits decimal.digits
      let power : Int := decimal.exponent + ((Nat.toDigits 10 decimal.digits).length : Int) - 1
      if -4 ≤ power && power < 16 then positional digits (power + 1)
      else
        digits.take 1 ++ (if 1 < digits.length then '.' :: digits.drop 1 else []) ++
          'e' :: exponentText power
  String.ofList (if x.negative && !x.isNaN then '-' :: unsigned else unsigned)

end JavaMetrics.Number
