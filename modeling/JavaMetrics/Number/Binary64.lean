import JavaMetrics.Number.Rounding

/-!
# Floating-point numbers

A `Binary64` is a number of the binary64 format, given by its bits. What the
library needs of it: equality as the format defines it, the exact value, and the
number nearest to a quotient or a decimal.
-/

namespace JavaMetrics.Number

/-- A number of the binary64 format. -/
structure Binary64 where
  bits : UInt64
deriving DecidableEq, Repr

namespace Binary64

/-- Positive zero. -/
def zero : Binary64 := ⟨0⟩

instance : Inhabited Binary64 := ⟨zero⟩

/-- The bits of positive infinity. -/
def infinityBits : Nat := 0x7FF0000000000000

/-- The bit of the sign. -/
def signBit : Nat := 0x8000000000000000

/-- The bits without the sign. -/
def magnitude (x : Binary64) : Nat :=
  x.bits.toNat % signBit

/-- Is the sign set? -/
def negative (x : Binary64) : Bool :=
  signBit ≤ x.bits.toNat

/-- Neither a number nor an infinity. -/
def isNaN (x : Binary64) : Bool :=
  infinityBits < x.magnitude

/-- One of the two infinities. -/
def isInfinite (x : Binary64) : Bool :=
  x.magnitude == infinityBits

/-- One of the two zeros. -/
def isZero (x : Binary64) : Bool :=
  x.magnitude == 0

/-- Equality of values: the two zeros are equal, and what is not a number differs from itself. -/
def same (x y : Binary64) : Bool :=
  !x.isNaN && !y.isNaN && (x == y || (x.isZero && y.isZero))

/-- The number with these bits and this sign. -/
def ofMagnitude (negative : Bool) (magnitude : Nat) : Binary64 :=
  ⟨(magnitude + if negative then signBit else 0).toUInt64⟩

/-- The infinity of a sign. -/
def infinity (negative : Bool) : Binary64 :=
  ofMagnitude negative infinityBits

/-- The quiet value that is not a number. -/
def nan (negative : Bool) : Binary64 :=
  ofMagnitude negative 0x7FF8000000000000

/-- A finite number is `significand * 2 ^ (scale - 1074)`, sign apart. -/
def significand (x : Binary64) : Nat :=
  if x.magnitude < twoPow 52 then x.magnitude else twoPow 52 + x.magnitude % twoPow 52

/-- See `significand`. -/
def scale (x : Binary64) : Nat :=
  x.magnitude / twoPow 52 - 1

/-- The magnitude of a finite number as a quotient. -/
def ratio (x : Binary64) : Nat × Nat :=
  if x.scale < 1074 then (x.significand, twoPow (1074 - x.scale))
  else (x.significand * twoPow (x.scale - 1074), 1)

/-- The scale at which a positive quotient has a significand of 53 bits, or the least scale when
the quotient is too small for that. -/
def scaleOfRatio (num den : Nat) : Nat :=
  -- The quotient lies between `2 ^ (l - 1)` and `2 ^ (l + 1)`, where `l` is the difference of the
  -- two logarithms, and `l + 1100` is kept to stay among the natural numbers.
  let shifted := num.log2 + 1100 - den.log2
  let atLeast :=
    if 1100 ≤ shifted then den * twoPow (shifted - 1100) ≤ num
    else den ≤ num * twoPow (1100 - shifted)
  let top := if atLeast then shifted else shifted - 1
  -- The leading bit has weight `2 ^ (top - 1100)`, and weight `2 ^ (scale - 1074 + 52)` at a scale.
  top - 78

/-- The magnitude nearest to a quotient, which may be that of infinity or beyond. -/
def magnitudeOfRatio (num den : Nat) : Nat :=
  if num = 0 then 0
  else
    let scale := scaleOfRatio num den
    let significand :=
      if scale < 1074 then roundDiv (num * twoPow (1074 - scale)) den
      else roundDiv num (den * twoPow (scale - 1074))
    -- A significand that was rounded up to `2 ^ 53` carries into the next scale.
    scale * twoPow 52 + significand

/-- The number nearest to a quotient, when there is one: beyond the largest number there is none.
-/
def ofRatio? (negative : Bool) (num den : Nat) : Option Binary64 :=
  let magnitude := magnitudeOfRatio num den
  if magnitude < infinityBits then some (ofMagnitude negative magnitude) else none

/-- The number nearest to `digits * 10 ^ exponent`, infinity when it is too large. The number of
digits bounds the power of ten that has to be computed. -/
def ofDecimal (negative : Bool) (digits : Nat) (exponent : Int) : Binary64 :=
  let places : Int := (Nat.toDigits 10 digits).length
  if digits = 0 then ofMagnitude negative 0
  else if 400 < places + exponent then infinity negative
  else if places + exponent < -400 then ofMagnitude negative 0
  else
    let (num, den) :=
      if exponent < 0 then (digits, tenPow (-exponent).toNat) else (digits * tenPow exponent.toNat, 1)
    (ofRatio? negative num den).getD (infinity negative)

end Binary64

end JavaMetrics.Number
