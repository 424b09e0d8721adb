import JavaMetrics.Proofs.Number.Quotient
import Mathlib.Algebra.Order.Field.Rat
import Mathlib.Algebra.Order.Field.Basic
import Mathlib.Tactic.Linarith
import Mathlib.Tactic.Ring

/-!
# The number nearest to a quotient

`ofRatio?` rounds once and correctly: of all finite numbers it gives the one nearest
to the quotient, and of two that are equally near the one with the even significand
(`isNearest_of_ofRatio?`).

Distances are compared as natural numbers. A finite number is a whole multiple of
`2 ^ -1074`, its `units`, so with the quotient `num / den` the number of units is
compared with `num * 2 ^ 1074` after multiplying it by `den`. At the scale of the
quotient the rounded significand is the nearest one on a grid (`roundDiv_nearest`).
A number of a larger scale lies on that grid too. One of a smaller scale may lie
between, but only below the least number of the grid that has all 53 bits, and that
one is between it and the quotient (`units_onGrid_or_below`).
-/

namespace JavaMetrics.Number

/-- How far two natural numbers are from each other. -/
def distance (a b : Nat) : Nat :=
  ((a : Int) - b).natAbs

theorem mul_le_or_le_mul (k q den : Nat) : k * den ≤ q * den ∨ q * den + den ≤ k * den := by
  rcases Nat.lt_or_ge q k with h | h
  · have hmul := Nat.mul_le_mul_right den (show q + 1 ≤ k from h)
    rw [Nat.succ_mul] at hmul
    exact .inr hmul
  · exact .inl (Nat.mul_le_mul_right den h)

/-- No other multiple of the denominator is nearer to the numerator, and one that is as near is so
at a half, where the even one is taken. -/
theorem roundDiv_nearest (num : Nat) {den : Nat} (hden : 0 < den) (k : Nat) :
    distance (roundDiv num den * den) num ≤ distance (k * den) num ∧
      (distance (roundDiv num den * den) num = distance (k * den) num → k ≠ roundDiv num den →
        roundDiv num den % 2 = 0) := by
  have hdiv : num / den * den + num % den = num := Nat.div_add_mod' num den
  have hmod := Nat.mod_lt num hden
  have hnext : (num / den + 1) * den = num / den * den + den := Nat.succ_mul _ _
  have hsides := mul_le_or_le_mul k (num / den) den
  have hbelow := mul_le_or_le_mul (num / den) k den
  have habove := mul_le_or_le_mul k (num / den + 1) den
  have heq : k * den = num / den * den → k = num / den := Nat.eq_of_mul_eq_mul_right hden
  have heqNext : k * den = (num / den + 1) * den → k = num / den + 1 :=
    Nat.eq_of_mul_eq_mul_right hden
  have hrounded : roundDiv num den = num / den ∧ 2 * (num % den) ≤ den ∧
        (2 * (num % den) = den → num / den % 2 = 0) ∨
      roundDiv num den = num / den + 1 ∧ den ≤ 2 * (num % den) ∧
        (2 * (num % den) = den → (num / den + 1) % 2 = 0) := by
    unfold roundDiv
    dsimp only
    split
    · omega
    · split <;> omega
  simp only [distance]
  rcases hrounded with ⟨hround, hhalf, heven⟩ | ⟨hround, hhalf, heven⟩
  · rw [hround]
    omega
  · rw [hround]
    omega

theorem cast_twoPow_pos (n : Nat) : (0 : ℚ) < twoPow n :=
  Nat.cast_pos.mpr (twoPow_pos n)

theorem abs_div_sub_div (n num : Nat) {unit den : Nat} (hunit : 0 < unit) (hden : 0 < den) :
    |(n : ℚ) / unit - num / den| = (distance (n * den) (num * unit) : ℚ) / (unit * den) := by
  have hunitPos : (0 : ℚ) < unit := Nat.cast_pos.mpr hunit
  have hdenPos : (0 : ℚ) < den := Nat.cast_pos.mpr hden
  rw [div_sub_div _ _ hunitPos.ne' hdenPos.ne', abs_div, abs_of_pos (mul_pos hunitPos hdenPos),
    distance, Nat.cast_natAbs, Int.cast_abs]
  push_cast
  rw [mul_comm (unit : ℚ) (num : ℚ)]

/-- Of two numbers that differ in their sign only the negative one is farther from a positive one. -/
theorem abs_sub_le_abs_neg_sub {u q : ℚ} (hu : 0 ≤ u) (hq : 0 ≤ q) :
    |u - q| ≤ |-u - q| ∧ (|u - q| = |-u - q| → u = 0 ∨ q = 0) := by
  have hneg : |-u - q| = u + q := by
    rw [abs_of_nonpos (by linarith)]
    ring
  rw [hneg]
  rcases le_total u q with h | h
  · rw [abs_of_nonpos (by linarith)]
    exact ⟨by linarith, fun heq => .inl (by linarith)⟩
  · rw [abs_of_nonneg (by linarith)]
    exact ⟨by linarith, fun heq => .inr (by linarith)⟩

namespace Binary64

/-! ## Numbers as whole multiples of the least one -/

/-- The magnitude of a finite number as a multiple of the least positive number. -/
def units (x : Binary64) : Nat :=
  x.significand * twoPow x.scale

/-- The value of a finite number. -/
def value (x : Binary64) : ℚ :=
  (if x.negative then -1 else 1) * (x.ratio.1 / x.ratio.2)

theorem significand_lt (x : Binary64) : x.significand < twoPow 53 := by
  have hmod := Nat.mod_lt x.magnitude (twoPow_pos 52)
  have hdouble : twoPow 53 = twoPow 52 + twoPow 52 := by decide
  rw [significand]
  split <;> omega

theorem ratio_eq_units (x : Binary64) :
    (x.ratio.1 : ℚ) / x.ratio.2 = x.units / twoPow 1074 := by
  rw [ratio, units]
  split
  · next hlow =>
      have hsum : twoPow 1074 = twoPow (1074 - x.scale) * twoPow x.scale := by
        rw [← twoPow_add, Nat.sub_add_cancel (Nat.le_of_lt hlow)]
      rw [hsum, Nat.cast_mul, Nat.cast_mul, mul_div_mul_right _ _ (cast_twoPow_pos _).ne']
  · next hhigh =>
      have hsum : twoPow x.scale = twoPow (x.scale - 1074) * twoPow 1074 := by
        rw [← twoPow_add, Nat.sub_add_cancel (Nat.le_of_not_lt hhigh)]
      rw [hsum, ← Nat.mul_assoc, Nat.cast_mul _ (twoPow 1074), Nat.cast_one, div_one,
        mul_div_cancel_right₀ _ (cast_twoPow_pos _).ne']

theorem value_of_not_negative {x : Binary64} (h : x.negative = false) :
    x.value = x.units / twoPow 1074 := by
  rw [value, h, ratio_eq_units, if_neg Bool.false_ne_true, one_mul]

theorem value_of_negative {x : Binary64} (h : x.negative = true) :
    x.value = -(x.units / twoPow 1074) := by
  rw [value, h, ratio_eq_units, if_pos rfl, neg_one_mul]

/-- What a magnitude stands for that is put together from a scale and a significand, also from one
that has been rounded up to the next scale. -/
theorem units_of_magnitude {x : Binary64} {scale rounded : Nat}
    (hx : x.magnitude = scale * twoPow 52 + rounded) (hle : rounded ≤ twoPow 53)
    (hfull : scale = 0 ∨ twoPow 52 ≤ rounded) :
    x.units = rounded * twoPow scale ∧ (rounded % 2 = 0 → x.significand % 2 = 0) := by
  have hdouble : twoPow 53 = twoPow 52 + twoPow 52 := by decide
  have heven : twoPow 52 % 2 = 0 := by decide
  rw [units, significand, Binary64.scale]
  by_cases hsmall : rounded < twoPow 52
  · obtain rfl : scale = 0 := by omega
    rw [hx, Nat.zero_mul, Nat.zero_add, if_pos hsmall, Nat.div_eq_of_lt hsmall]
    exact ⟨rfl, id⟩
  · by_cases hcarry : rounded = twoPow 53
    · have hmagnitude : x.magnitude = (scale + 2) * twoPow 52 := by
        rw [hx, hcarry, hdouble, Nat.add_mul]
        omega
      have hlarge : ¬ x.magnitude < twoPow 52 := by omega
      rw [if_neg hlarge, hmagnitude, Nat.mul_div_cancel _ (twoPow_pos 52), Nat.mul_mod_left,
        hcarry]
      refine ⟨?_, fun _ => heven⟩
      show twoPow 52 * twoPow (scale + 1) = _
      rw [← twoPow_add, ← twoPow_add]
      exact congrArg twoPow (by omega)
    · have hmagnitude : x.magnitude = (rounded - twoPow 52) + (scale + 1) * twoPow 52 := by
        rw [hx, Nat.add_mul]
        omega
      have hrest : rounded - twoPow 52 < twoPow 52 := by omega
      have hlarge : ¬ x.magnitude < twoPow 52 := by omega
      rw [if_neg hlarge, hmagnitude, Nat.add_mul_mod_self_right, Nat.mod_eq_of_lt hrest,
        Nat.add_mul_div_right _ _ (twoPow_pos 52), Nat.div_eq_of_lt hrest, Nat.zero_add,
        Nat.add_sub_cancel, Nat.add_sub_cancel' (Nat.le_of_not_lt hsmall)]
      exact ⟨rfl, id⟩

/-- A number lies on the grid of a scale, or below the least number of that scale that has all its
bits. -/
theorem units_onGrid_or_below (y : Binary64) (scale : Nat) :
    (∃ k, y.units = k * twoPow scale) ∨ 0 < scale ∧ y.units < twoPow 52 * twoPow scale := by
  rcases Nat.lt_or_ge y.scale scale with hlow | hhigh
  · refine .inr ⟨by omega, ?_⟩
    calc y.units < twoPow 53 * twoPow y.scale :=
          Nat.mul_lt_mul_of_pos_right y.significand_lt (twoPow_pos _)
      _ = twoPow (53 + y.scale) := (twoPow_add _ _).symm
      _ ≤ twoPow (52 + scale) := twoPow_le (by omega)
      _ = twoPow 52 * twoPow scale := twoPow_add _ _
  · refine .inl ⟨y.significand * twoPow (y.scale - scale), ?_⟩
    rw [Nat.mul_assoc, ← twoPow_add, Nat.sub_add_cancel hhigh, units]

/-! ## Rounding a quotient -/

/-- The magnitude nearest to a quotient, taken apart. -/
theorem exists_scale (num : Nat) {den : Nat} (hden : 0 < den) :
    ∃ scale, magnitudeOfRatio num den =
        scale * twoPow 52 + roundDiv (num * twoPow 1074) (den * twoPow scale) ∧
      roundDiv (num * twoPow 1074) (den * twoPow scale) ≤ twoPow 53 ∧
      (scale = 0 ∨ den * twoPow (scale + 52) ≤ num * twoPow 1074) := by
  by_cases hnum : num = 0
  · refine ⟨0, ?_, ?_, .inl rfl⟩
    · rw [magnitudeOfRatio, if_pos hnum, hnum]
      simp [roundDiv, hden, twoPow_pos]
    · rw [hnum]
      simp [roundDiv, hden, twoPow_pos]
  · refine ⟨scaleOfRatio num den, magnitudeOfRatio_eq hnum den, significand_le num hden, ?_⟩
    rcases Nat.eq_zero_or_pos (scaleOfRatio num den) with hzero | hpos
    · exact .inl hzero
    · exact .inr (scale_le_ratio hnum hden hpos)

theorem units_nearest {num den : Nat} (hden : 0 < den) {x : Binary64}
    (hx : x.magnitude = magnitudeOfRatio num den) (y : Binary64) :
    distance (x.units * den) (num * twoPow 1074) ≤ distance (y.units * den) (num * twoPow 1074) ∧
      (distance (x.units * den) (num * twoPow 1074) = distance (y.units * den) (num * twoPow 1074) →
        y.units ≠ x.units → x.significand % 2 = 0) := by
  obtain ⟨scale, hmagnitude, hle, hfull⟩ := exists_scale num hden
  have hgrid : 0 < den * twoPow scale := Nat.mul_pos hden (twoPow_pos _)
  have hpart : den * twoPow (scale + 52) = twoPow 52 * (den * twoPow scale) := by
    rw [twoPow_add, ← Nat.mul_assoc, Nat.mul_comm (twoPow 52)]
  generalize num * twoPow 1074 = exact at hmagnitude hle hfull ⊢
  have hnearest := roundDiv_nearest exact hgrid
  have hbits : scale = 0 ∨ twoPow 52 ≤ roundDiv exact (den * twoPow scale) := by
    refine hfull.imp id fun hleast => ?_
    rw [hpart] at hleast
    exact Nat.le_trans ((Nat.le_div_iff_mul_le hgrid).mpr hleast) (div_le_roundDiv _ _)
  obtain ⟨hunits, heven⟩ := units_of_magnitude (hx.trans hmagnitude) hle hbits
  have hxGrid : x.units * den = roundDiv exact (den * twoPow scale) * (den * twoPow scale) := by
    rw [hunits, Nat.mul_assoc, Nat.mul_comm (twoPow scale)]
  rw [hxGrid]
  rcases y.units_onGrid_or_below scale with ⟨k, hk⟩ | ⟨hpos, hbelow⟩
  · have hyGrid : y.units * den = k * (den * twoPow scale) := by
      rw [hk, Nat.mul_assoc, Nat.mul_comm (twoPow scale)]
    rw [hyGrid]
    refine ⟨(hnearest k).1, fun htie hne => heven ((hnearest k).2 htie ?_)⟩
    intro hsame
    exact hne (by rw [hk, hunits, hsame])
  · -- the least number with all bits is nearer than `y`, and the rounded one is not farther
    have hleast : twoPow 52 * (den * twoPow scale) ≤ exact := by
      rw [← hpart]
      exact hfull.resolve_left (by omega)
    have hy : y.units * den < twoPow 52 * (den * twoPow scale) := by
      have hmul := Nat.mul_lt_mul_of_pos_right hbelow hden
      rwa [Nat.mul_assoc, Nat.mul_comm (twoPow scale)] at hmul
    have hnear := (hnearest (twoPow 52)).1
    simp only [distance] at hnear ⊢
    omega

/-- Is the number finite and nearest to a rational, and of two that are nearest the one with the even
significand? -/
structure IsNearest (x : Binary64) (q : ℚ) : Prop where
  finite : x.magnitude < infinityBits
  nearest : ∀ y : Binary64, y.magnitude < infinityBits → |x.value - q| ≤ |y.value - q|
  even : ∀ y : Binary64, y.magnitude < infinityBits → |y.value - q| = |x.value - q| →
    y.value ≠ x.value → x.significand % 2 = 0

theorem negative_ofMagnitude {magnitude : Nat} (h : magnitude < signBit) :
    (ofMagnitude false magnitude).negative = false := by
  have hbits : magnitude < 2 ^ 64 := Nat.lt_trans h (by decide)
  rw [ofMagnitude, negative, Nat.toUInt64]
  simp only [Bool.false_eq_true, if_false, Nat.add_zero]
  rw [UInt64.toNat_ofNat_of_lt' hbits]
  exact decide_eq_false (Nat.not_le_of_lt h)

theorem of_ofRatio? {num den : Nat} {x : Binary64} (h : ofRatio? false num den = some x) :
    x.magnitude = magnitudeOfRatio num den ∧ x.magnitude < infinityBits ∧ x.negative = false := by
  have hsign : infinityBits < signBit := by decide
  rw [ofRatio?] at h
  split at h
  · next hfinite =>
      injection h with h
      have hmagnitude : (ofMagnitude false (magnitudeOfRatio num den)).magnitude =
          magnitudeOfRatio num den := magnitude_ofMagnitude (Nat.lt_trans hfinite hsign)
      rw [← h]
      exact ⟨hmagnitude, hmagnitude.symm ▸ hfinite,
        negative_ofMagnitude (Nat.lt_trans hfinite hsign)⟩
  · cases h

theorem isNearest_of_ofRatio? {num den : Nat} (hden : 0 < den) {x : Binary64}
    (h : ofRatio? false num den = some x) : x.IsNearest (num / den) := by
  obtain ⟨hmagnitude, hfinite, hpositive⟩ := of_ofRatio? h
  have hnearest := units_nearest hden hmagnitude
  have hscaled : (0 : ℚ) < twoPow 1074 * den := by
    exact mul_pos (cast_twoPow_pos _) (Nat.cast_pos.mpr hden)
  have hdist : ∀ n : Nat, |(n : ℚ) / twoPow 1074 - num / den| =
      (distance (n * den) (num * twoPow 1074) : ℚ) / (twoPow 1074 * den) := fun n =>
    abs_div_sub_div n num (twoPow_pos _) hden
  have hx := value_of_not_negative hpositive
  have hq : (0 : ℚ) ≤ num / den := div_nonneg (Nat.cast_nonneg _) (Nat.cast_nonneg _)
  have hle : ∀ y : Binary64, |x.value - num / den| ≤ |(y.units : ℚ) / twoPow 1074 - num / den| := by
    intro y
    rw [hx, hdist, hdist]
    exact div_le_div_of_nonneg_right (Nat.cast_le.mpr (hnearest y).1) hscaled.le
  have hunits : ∀ y : Binary64, (0 : ℚ) ≤ y.units / twoPow 1074 := fun y =>
    div_nonneg (Nat.cast_nonneg _) (cast_twoPow_pos _).le
  refine ⟨hfinite, ?_, ?_⟩
  · intro y _
    cases hsign : y.negative with
    | false => rw [value_of_not_negative hsign]; exact hle y
    | true =>
        rw [value_of_negative hsign]
        exact (hle y).trans (abs_sub_le_abs_neg_sub (hunits y) hq).1
  · intro y _ htie hne
    have hfarther := abs_sub_le_abs_neg_sub (hunits y) hq
    have hnear : |x.value - num / den| = |(y.units : ℚ) / twoPow 1074 - num / den| := by
      cases hsign : y.negative with
      | false => rw [← htie, value_of_not_negative hsign]
      | true =>
          rw [value_of_negative hsign] at htie
          exact le_antisymm (hle y) (hfarther.1.trans htie.le)
    have hdistance := hnear
    rw [hx, hdist, hdist, div_left_inj' hscaled.ne', Nat.cast_inj] at hdistance
    refine (hnearest y).2 hdistance ?_
    intro hsame
    have hxy : x.value = (y.units : ℚ) / twoPow 1074 := by rw [hx, hsame]
    cases hsign : y.negative with
    | false => exact hne (by rw [value_of_not_negative hsign, hxy])
    | true =>
        rw [value_of_negative hsign] at htie hne
        have hzero : (y.units : ℚ) / twoPow 1074 = 0 := by
          rcases hfarther.2 (hnear.symm.trans htie.symm) with hzero | hzero
          · exact hzero
          · have hleast := hle zero
            rw [hzero, hxy, show zero.units = 0 from rfl, Nat.cast_zero, zero_div, sub_self,
              abs_zero, sub_zero] at hleast
            exact abs_nonpos_iff.mp hleast
        exact hne (by rw [hxy, hzero, neg_zero])

/-! ## Numbers that are at least one -/

def one : Binary64 := ⟨0x3FF0000000000000⟩

theorem value_one : one.value = 1 := by
  have hunits : one.units = twoPow 1074 := by
    rw [units, show one.significand = twoPow 52 by decide, show one.scale = 1022 by decide,
      ← twoPow_add]
  rw [value_of_not_negative (by decide), hunits, div_self (cast_twoPow_pos _).ne']

theorem value_of_isZero {x : Binary64} (h : x.isZero = true) : x.value = 0 := by
  have hmagnitude : x.magnitude = 0 := by simpa [isZero] using h
  have hunits : x.units = 0 := by
    rw [units, significand, hmagnitude, if_pos (twoPow_pos 52), Nat.zero_mul]
  rw [value, ratio_eq_units, hunits, Nat.cast_zero, zero_div, mul_zero]

theorem IsNearest.one_le_value {x : Binary64} {q : ℚ} (h : x.IsNearest q) (hq : 1 ≤ q) :
    1 ≤ x.value := by
  by_contra hlt
  have hnearest := h.nearest one (by decide)
  rw [value_one, abs_of_nonpos (by linarith), abs_of_nonpos (by linarith)] at hnearest
  linarith

theorem IsNearest.not_isZero {x : Binary64} {q : ℚ} (h : x.IsNearest q) (hq : 1 ≤ q) :
    x.isZero = false := by
  cases hzero : x.isZero with
  | false => rfl
  | true =>
      have hone := h.one_le_value hq
      rw [value_of_isZero hzero] at hone
      linarith

theorem IsNearest.isNaN_eq_false {x : Binary64} {q : ℚ} (h : x.IsNearest q) : x.isNaN = false := by
  rw [isNaN]
  exact decide_eq_false (Nat.lt_asymm h.finite)

end Binary64

end JavaMetrics.Number
