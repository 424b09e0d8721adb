import JavaMetrics.Number.Binary64

/-!
# A fixed number of places

A number written with a fixed number of places after the point. The exact value
is rounded, and a half goes to the even neighbour.
-/

namespace JavaMetrics.Number

/-- The number of hundredths nearest to the magnitude of a finite number. -/
def Binary64.hundredths (x : Binary64) : Nat :=
  let (num, den) := x.ratio
  roundDiv (num * 100) den

/-- A finite number with two places after the point. -/
def Binary64.twoPlaces (x : Binary64) : String :=
  let hundredths := x.hundredths
  let fraction := hundredths % 100
  let sign := if x.negative then "-" else ""
  let pad := if fraction < 10 then "0" else ""
  sign ++ toString (hundredths / 100) ++ "." ++ pad ++ toString fraction

end JavaMetrics.Number
