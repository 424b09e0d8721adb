import JavaMetrics.Number.Binary64
import Mathlib.Algebra.Ring.Nat

/-!
# Quotients that a number can hold

The number nearest to a quotient is found in two steps: a scale at which the
quotient has a significand of 53 bits, and the significand rounded at that scale.
The scale is guessed from the lengths of numerator and denominator and mended by
one comparison; `scaleOfRatio_spec` says that it is neither too small nor too large,
so that the rounded significand is at most `2 ^ 53` (`significand_le`). Hence a
quotient whose numerator is below `2 ^ 1023` stays clear of the infinities, whatever
divides it (`magnitudeOfRatio_lt`), and `ofRatio?` gives a number for it.
-/

namespace JavaMetrics.Number

theorem lt_twoPow {m n : Nat} (h : m < 2 ^ n) : m < twoPow n := h

theorem twoPow_pos (n : Nat) : 0 < twoPow n := Nat.two_pow_pos n

theorem twoPow_add (m n : Nat) : twoPow (m + n) = twoPow m * twoPow n := Nat.pow_add 2 m n

theorem twoPow_le {m n : Nat} (h : m ≤ n) : twoPow m ≤ twoPow n :=
  Nat.pow_le_pow_right (by decide) h

theorem log2_lt_of_lt_twoPow {num k : Nat} (hne : num ≠ 0) (h : num < twoPow k) : num.log2 < k :=
  (Nat.log2_lt hne).mpr h

theorem lt_of_mul_twoPow_lt {a b k : Nat} (h : a * twoPow k < b * twoPow k) : a < b :=
  Nat.lt_of_mul_lt_mul_right h

theorem le_of_mul_twoPow_le {a b k : Nat} (h : a * twoPow k ≤ b * twoPow k) : a ≤ b :=
  Nat.le_of_mul_le_mul_right h (twoPow_pos k)

/-- A power of two taken out of both sides. -/
theorem mul_twoPow_le_iff {a b m n : Nat} (k : Nat) :
    a * twoPow (m + k) ≤ b * twoPow (n + k) ↔ a * twoPow m ≤ b * twoPow n := by
  rw [twoPow_add, twoPow_add, ← Nat.mul_assoc, ← Nat.mul_assoc]
  exact Nat.mul_le_mul_right_iff (twoPow_pos k)

theorem roundDiv_le_of_lt {num den bound : Nat} (h : num < den * bound) :
    roundDiv num den ≤ bound := by
  have hle := roundDiv_le num den
  have hlt : num / den < bound := Nat.div_lt_of_lt_mul h
  omega

/-- Rounding depends on the quotient only. -/
theorem roundDiv_mul_right (num den : Nat) {c : Nat} (hc : 0 < c) :
    roundDiv (num * c) (den * c) = roundDiv num den := by
  have hbelow : 2 * (num % den * c) < den * c ↔ 2 * (num % den) < den := by
    rw [← Nat.mul_assoc]
    exact Nat.mul_lt_mul_right hc
  have habove : den * c < 2 * (num % den * c) ↔ den < 2 * (num % den) := by
    rw [← Nat.mul_assoc]
    exact Nat.mul_lt_mul_right hc
  simp only [roundDiv, Nat.mul_div_mul_right _ _ hc, Nat.mul_mod_mul_right, hbelow, habove]

namespace Binary64

/-- The quotient is below the power of two after the guessed one. -/
theorem ratio_lt_guess (num : Nat) {den : Nat} (hden : 0 < den) :
    num * twoPow 1100 < den * twoPow (num.log2 + 1100 - den.log2 + 1) := by
  have hbelow : num < twoPow (num.log2 + 1) := Nat.lt_log2_self
  have habove : twoPow den.log2 ≤ den := Nat.log2_self_le (by omega)
  calc num * twoPow 1100 < twoPow (num.log2 + 1) * twoPow 1100 :=
        Nat.mul_lt_mul_of_pos_right hbelow (twoPow_pos _)
    _ = twoPow (num.log2 + 1 + 1100) := (twoPow_add _ _).symm
    _ ≤ twoPow (den.log2 + (num.log2 + 1100 - den.log2 + 1)) := twoPow_le (by omega)
    _ = twoPow den.log2 * twoPow (num.log2 + 1100 - den.log2 + 1) := twoPow_add _ _
    _ ≤ den * twoPow (num.log2 + 1100 - den.log2 + 1) := Nat.mul_le_mul_right _ habove

/-- The quotient is not below the power of two before the guessed one. -/
theorem guess_le_ratio {num den : Nat} (hnum : num ≠ 0)
    (hguess : 0 < num.log2 + 1100 - den.log2) :
    den * twoPow (num.log2 + 1100 - den.log2 - 1) ≤ num * twoPow 1100 := by
  have hbelow : den < twoPow (den.log2 + 1) := Nat.lt_log2_self
  have habove : twoPow num.log2 ≤ num := Nat.log2_self_le hnum
  have hsum : den.log2 + 1 + (num.log2 + 1100 - den.log2 - 1) = num.log2 + 1100 := by omega
  calc den * twoPow (num.log2 + 1100 - den.log2 - 1)
      ≤ twoPow (den.log2 + 1) * twoPow (num.log2 + 1100 - den.log2 - 1) :=
        Nat.mul_le_mul_right _ (Nat.le_of_lt hbelow)
    _ = twoPow num.log2 * twoPow 1100 := by rw [← twoPow_add, hsum, twoPow_add]
    _ ≤ num * twoPow 1100 := Nat.mul_le_mul_right _ habove

/-- What the comparison finds out about the guess. -/
theorem atLeast_iff {num den shifted : Nat} :
    (if 1100 ≤ shifted then den * twoPow (shifted - 1100) ≤ num
      else den ≤ num * twoPow (1100 - shifted)) ↔ den * twoPow shifted ≤ num * twoPow 1100 := by
  split
  · next hlarge =>
      have h := mul_twoPow_le_iff (a := den) (b := num) (m := shifted - 1100) (n := 0) 1100
      rw [Nat.sub_add_cancel hlarge, Nat.zero_add, show twoPow 0 = 1 from rfl, Nat.mul_one] at h
      exact h.symm
  · next hsmall =>
      have h := mul_twoPow_le_iff (a := den) (b := num) (m := 0) (n := 1100 - shifted) shifted
      rw [Nat.sub_add_cancel (by omega), Nat.zero_add, show twoPow 0 = 1 from rfl,
        Nat.mul_one] at h
      exact h.symm

/-- The scale comes from the place of the leading bit of the quotient, which is no higher than the
length of the numerator allows. -/
theorem scaleOfRatio_spec (num : Nat) {den : Nat} (hden : 0 < den) :
    ∃ top, scaleOfRatio num den = top - 78 ∧ top ≤ num.log2 + 1100 ∧
      num * twoPow 1100 < den * twoPow (top + 1) ∧
      (num ≠ 0 → 0 < top → den * twoPow top ≤ num * twoPow 1100) := by
  have hguess := ratio_lt_guess num hden
  have hback : num ≠ 0 → 0 < num.log2 + 1100 - den.log2 →
      den * twoPow (num.log2 + 1100 - den.log2 - 1) ≤ num * twoPow 1100 := guess_le_ratio
  unfold scaleOfRatio
  refine ⟨_, rfl, ?_⟩
  have hshifted : num.log2 + 1100 - den.log2 ≤ num.log2 + 1100 := Nat.sub_le _ _
  generalize num.log2 + 1100 - den.log2 = shifted at hguess hback hshifted ⊢
  by_cases hleast : if 1100 ≤ shifted then den * twoPow (shifted - 1100) ≤ num
    else den ≤ num * twoPow (1100 - shifted)
  · rw [if_pos hleast]
    exact ⟨hshifted, hguess, fun _ _ => atLeast_iff.mp hleast⟩
  · rw [if_neg hleast]
    have hbelow := Nat.lt_of_not_le (mt atLeast_iff.mpr hleast)
    refine ⟨by omega, Nat.lt_of_lt_of_le hbelow ?_, fun hnum htop => hback hnum (by omega)⟩
    exact Nat.mul_le_mul_left _ (twoPow_le (by omega))

theorem ratio_lt_scale (num : Nat) {den : Nat} (hden : 0 < den) :
    num * twoPow 1074 < den * twoPow (scaleOfRatio num den + 53) := by
  obtain ⟨top, hscale, -, htop, -⟩ := scaleOfRatio_spec num hden
  rw [hscale]
  apply lt_of_mul_twoPow_lt (k := 26)
  rw [Nat.mul_assoc, Nat.mul_assoc, ← twoPow_add, ← twoPow_add]
  exact Nat.lt_of_lt_of_le htop (Nat.mul_le_mul_left _ (twoPow_le (by omega)))

/-- At a scale that is not the least one the quotient has all 53 bits. -/
theorem scale_le_ratio {num den : Nat} (hnum : num ≠ 0) (hden : 0 < den)
    (hscale : 0 < scaleOfRatio num den) :
    den * twoPow (scaleOfRatio num den + 52) ≤ num * twoPow 1074 := by
  obtain ⟨top, htop, -, -, hback⟩ := scaleOfRatio_spec num hden
  have hsum : scaleOfRatio num den + 52 + 26 = top := by omega
  apply le_of_mul_twoPow_le (k := 26)
  rw [Nat.mul_assoc, Nat.mul_assoc, ← twoPow_add, ← twoPow_add, hsum]
  exact hback hnum (by omega)

/-- The magnitude of a quotient is put together from its scale and the significand rounded there. -/
theorem magnitudeOfRatio_eq {num : Nat} (hnum : num ≠ 0) (den : Nat) :
    magnitudeOfRatio num den = scaleOfRatio num den * twoPow 52 +
      roundDiv (num * twoPow 1074) (den * twoPow (scaleOfRatio num den)) := by
  rw [magnitudeOfRatio, if_neg hnum]
  dsimp only
  generalize scaleOfRatio num den = scale
  rw [Nat.add_left_cancel_iff]
  split
  · next hlow =>
      have hsum : 1074 - scale + scale = 1074 := by omega
      rw [← roundDiv_mul_right _ _ (twoPow_pos scale), Nat.mul_assoc, ← twoPow_add, hsum]
  · next hhigh =>
      have hsum : scale - 1074 + 1074 = scale := by omega
      rw [← roundDiv_mul_right _ _ (twoPow_pos 1074), Nat.mul_assoc, ← twoPow_add, hsum]

theorem significand_le (num : Nat) {den : Nat} (hden : 0 < den) :
    roundDiv (num * twoPow 1074) (den * twoPow (scaleOfRatio num den)) ≤ twoPow 53 := by
  apply roundDiv_le_of_lt
  rw [Nat.mul_assoc, ← twoPow_add]
  exact ratio_lt_scale num hden

theorem magnitudeOfRatio_lt {num den : Nat} (hnum : num < twoPow 1023) (hden : 0 < den) :
    magnitudeOfRatio num den < infinityBits := by
  by_cases hne : num = 0
  · rw [magnitudeOfRatio, if_pos hne]
    decide
  · have hlog := log2_lt_of_lt_twoPow hne hnum
    obtain ⟨top, hscale, htop, -⟩ := scaleOfRatio_spec num hden
    have hsignificand := significand_le num hden
    rw [magnitudeOfRatio_eq hne]
    have hmul : scaleOfRatio num den * twoPow 52 ≤ 2044 * twoPow 52 :=
      Nat.mul_le_mul_right _ (by omega)
    have hroom : 2044 * twoPow 52 + twoPow 53 < infinityBits := by decide
    omega

theorem magnitude_ofMagnitude {negative : Bool} {magnitude : Nat} (h : magnitude < signBit) :
    (ofMagnitude negative magnitude).magnitude = magnitude := by
  have hbits : magnitude + (if negative then signBit else 0) < 2 ^ 64 := by
    have : signBit + signBit = 2 ^ 64 := by decide
    split <;> omega
  rw [ofMagnitude, Binary64.magnitude, Nat.toUInt64, UInt64.toNat_ofNat_of_lt' hbits]
  split
  · rw [Nat.add_mod_right, Nat.mod_eq_of_lt h]
  · exact Nat.mod_eq_of_lt h

/-- A quotient with a numerator below `2 ^ 1023` has a nearest number. -/
theorem ofRatio?_of_lt (negative : Bool) {num den : Nat} (hnum : num < twoPow 1023)
    (hden : 0 < den) : ∃ x, ofRatio? negative num den = some x ∧ x.isNaN = false := by
  have h := magnitudeOfRatio_lt hnum hden
  have hsign : infinityBits < signBit := by decide
  refine ⟨ofMagnitude negative (magnitudeOfRatio num den), ?_, ?_⟩
  · rw [ofRatio?, if_pos h]
  · rw [isNaN, magnitude_ofMagnitude (by omega)]
    exact decide_eq_false (by omega)

theorem same_self {x : Binary64} (h : x.isNaN = false) : x.same x = true := by
  simp [same, h]

end Binary64

end JavaMetrics.Number
