import KeyControl.Number.Decimal
import Mathlib.Algebra.Order.Field.Power
import Mathlib.Algebra.Order.Field.Rat
import Mathlib.Data.Nat.Cast.Order.Field
import Mathlib.Tactic.Linarith
import Mathlib.Tactic.NormNum
import Mathlib.Tactic.Positivity
import Mathlib.Tactic.Ring

/-!
# What rounds to a double is read as that double

A positive value, counted in units of the least positive double, rounds to a magnitude when it lies
between the midpoints to the two neighbours of that magnitude.  `FiniteDouble.RoundsTo` says so of a
rational number, so that it does not matter in which way the number is written as a quotient or as a
decimal.

* `FiniteDouble.nearestMagnitude_eq` --- the search bit by bit finds the magnitude that a quotient
  rounds to.  The values of magnitudes are strictly increasing (`units_strictMono`), so the search
  ends at the last magnitude that is not above the quotient (`floorMagnitude_spec`), and that one is
  the magnitude sought or the one below it.
* `Decimal.toDouble?_eq_of_roundsTo` --- a decimal that rounds to the magnitude of a double is read
  as that double.  The two shortcuts for decimals that are far too large or far too small are never
  taken here: such a decimal lies outside all the intervals.
-/

namespace KeyControl

namespace FiniteDouble

/-! ## Values of magnitudes -/

theorem units_of_lt {m : ℕ} (h : m < 2 ^ 52) : units m = m :=
  if_pos h

/-- From `2 ^ 52` on the fraction follows a leading bit, and the exponent shifts both. -/
theorem units_of_le {m : ℕ} (h : 2 ^ 52 ≤ m) :
    units m = (2 ^ 52 + m % 2 ^ 52) * 2 ^ (m / 2 ^ 52 - 1) :=
  (if_neg (Nat.not_lt.2 h)).trans (Nat.shiftLeft_eq _ _)

/-- The next magnitude has a greater value.  Within one exponent the fraction grows by one; from the
last fraction of an exponent to the first of the next the leading bit is doubled. -/
theorem units_lt_succ (m : ℕ) : units m < units (m + 1) := by
  by_cases h1 : m + 1 < 2 ^ 52
  · rw [units_of_lt (by omega), units_of_lt h1]
    omega
  · rw [units_of_le (m := m + 1) (by omega)]
    by_cases h0 : m < 2 ^ 52
    · have hm : m = 2 ^ 52 - 1 := by omega
      rw [units_of_lt h0, hm]
      decide
    · rw [units_of_le (by omega)]
      obtain ⟨k, hk⟩ : ∃ k, m / 2 ^ 52 = k + 1 := ⟨m / 2 ^ 52 - 1, by omega⟩
      by_cases hr : m % 2 ^ 52 + 1 < 2 ^ 52
      · have hmod : (m + 1) % 2 ^ 52 = m % 2 ^ 52 + 1 := by omega
        have hdiv : (m + 1) / 2 ^ 52 = m / 2 ^ 52 := by omega
        rw [hmod, hdiv]
        exact Nat.mul_lt_mul_of_pos_right (by omega) (Nat.two_pow_pos _)
      · have hmod : (m + 1) % 2 ^ 52 = 0 := by omega
        have hdiv : (m + 1) / 2 ^ 52 = k + 2 := by omega
        rw [hmod, hdiv, hk]
        calc (2 ^ 52 + m % 2 ^ 52) * 2 ^ (k + 1 - 1)
            < (2 ^ 52 + 2 ^ 52) * 2 ^ (k + 1 - 1) :=
              Nat.mul_lt_mul_of_pos_right (by omega) (Nat.two_pow_pos _)
          _ = (2 ^ 52 + 0) * 2 ^ (k + 2 - 1) := by
            rw [Nat.add_sub_cancel, show k + 2 - 1 = k + 1 by omega, pow_succ]
            ring

/-- **Magnitudes are ordered as their values.** -/
theorem units_strictMono : StrictMono units :=
  strictMono_nat_of_lt_succ units_lt_succ

@[simp] theorem units_zero : units 0 = 0 := rfl

@[simp] theorem units_one : units 1 = 1 := rfl

/-! ## The search -/

variable {num den : ℕ}

/-- **The search ends at the last magnitude that is not above the quotient**, if it starts at one
that is not above it and the end of its range is. -/
theorem floorMagnitude_spec (k : ℕ) {m : ℕ} (hlow : units m * den ≤ num)
    (hhigh : num < units (m + 2 ^ k) * den) :
    units (floorMagnitude num den k m) * den ≤ num ∧
      num < units (floorMagnitude num den k m + 1) * den := by
  induction k generalizing m with
  | zero => exact ⟨hlow, hhigh⟩
  | succ k ih =>
    rw [floorMagnitude, Nat.one_shiftLeft]
    split
    · next h =>
      apply ih h
      rwa [add_assoc, ← two_mul, ← pow_succ']
    · next h => exact ih hlow (not_le.1 h)

/-- Twice a quotient that rounds to a magnitude is at least the sum of that magnitude's value and
the one below, and more than it if the magnitude is odd. -/
theorem lower_of_rounds {m : ℕ} (h : rounds num den m = true) :
    (units (m - 1) + units m) * den ≤ 2 * num ∧
      (m % 2 = 1 → (units (m - 1) + units m) * den < 2 * num) := by
  unfold rounds at h
  dsimp only at h
  split at h
  · next heven =>
    rw [Bool.and_eq_true, decide_eq_true_eq] at h
    exact ⟨h.1, fun hodd => by omega⟩
  · rw [Bool.and_eq_true, decide_eq_true_eq] at h
    exact ⟨h.1.le, fun _ => h.1⟩

/-- Twice a quotient that rounds to a magnitude is at most the sum of that magnitude's value and
the next, and less than it if the magnitude is odd. -/
theorem upper_of_rounds {m : ℕ} (h : rounds num den m = true) :
    2 * num ≤ (units m + units (m + 1)) * den ∧
      (m % 2 = 1 → 2 * num < (units m + units (m + 1)) * den) := by
  unfold rounds at h
  dsimp only at h
  split at h
  · next heven =>
    rw [Bool.and_eq_true, decide_eq_true_eq, decide_eq_true_eq] at h
    exact ⟨h.2, fun hodd => by omega⟩
  · rw [Bool.and_eq_true, decide_eq_true_eq, decide_eq_true_eq] at h
    exact ⟨h.2.le, fun _ => h.2⟩

/-- The last magnitude not above a quotient is the one it rounds to, or the one below that. -/
theorem floor_eq_or_succ {m f : ℕ} (hden : 0 < den) (h : rounds num den m = true)
    (hlow : units f * den ≤ num) (hhigh : num < units (f + 1) * den) : f = m ∨ f + 1 = m := by
  obtain ⟨hl, -⟩ := lower_of_rounds h
  obtain ⟨hu, -⟩ := upper_of_rounds h
  -- One magnitude further off, the quotient would lie beyond the midpoint on that side.
  have hfm : f ≤ m := by
    by_contra hlt
    have h1 : units (m + 1) * den ≤ units f * den :=
      Nat.mul_le_mul_right _ (units_strictMono.monotone (by omega))
    have h2 : units m * den < units (m + 1) * den :=
      Nat.mul_lt_mul_of_pos_right (units_lt_succ m) hden
    rw [add_mul] at hu
    omega
  have hmf : m ≤ f + 1 := by
    by_contra hlt
    have h1 : units (f + 1) * den ≤ units (m - 1) * den :=
      Nat.mul_le_mul_right _ (units_strictMono.monotone (by omega))
    have h2 : units (m - 1) * den ≤ units m * den :=
      Nat.mul_le_mul_right _ (units_strictMono.monotone (by omega))
    rw [add_mul] at hl
    omega
  omega

/-- **The nearest magnitude to a quotient is the one that it rounds to.** -/
theorem nearestMagnitude_eq {m : ℕ} (hden : 0 < den) (hm : m < 2 ^ 63)
    (h : rounds num den m = true) : nearestMagnitude num den = m := by
  obtain ⟨hl, hl'⟩ := lower_of_rounds h
  obtain ⟨hu, hu'⟩ := upper_of_rounds h
  have hstart : units 0 * den ≤ num := by rw [units_zero, zero_mul]; exact Nat.zero_le _
  have hend : num < units (0 + 2 ^ 63) * den := by
    have h1 : units m * den < units (m + 1) * den :=
      Nat.mul_lt_mul_of_pos_right (units_lt_succ m) hden
    have h2 : units (m + 1) * den ≤ units (0 + 2 ^ 63) * den :=
      Nat.mul_le_mul_right _ (units_strictMono.monotone (by omega))
    rw [add_mul] at hu
    omega
  obtain ⟨hlow, hhigh⟩ := floorMagnitude_spec 63 hstart hend
  unfold nearestMagnitude
  generalize floorMagnitude num den 63 0 = f at hlow hhigh
  dsimp only
  rcases floor_eq_or_succ hden h hlow hhigh with rfl | rfl
  · split_ifs <;> omega
  · rw [Nat.add_sub_cancel] at hl hl'
    split_ifs <;> omega

/-! ## Rounding of rational numbers -/

/-- A number of units rounds to a magnitude: it lies between the midpoints to the two neighbours,
and the midpoints themselves belong to the even magnitudes. -/
def RoundsTo (q : ℚ) (m : ℕ) : Prop :=
  if m % 2 = 0 then
    (units (m - 1) + units m : ℕ) ≤ 2 * q ∧ 2 * q ≤ (units m + units (m + 1) : ℕ)
  else (units (m - 1) + units m : ℕ) < 2 * q ∧ 2 * q < (units m + units (m + 1) : ℕ)

/-- **The test on quotients is the one on rational numbers.** -/
theorem rounds_iff (hden : 0 < den) (m : ℕ) :
    rounds num den m = true ↔ RoundsTo (num / den) m := by
  have hpos : (0 : ℚ) < den := by exact_mod_cast hden
  have hleft : ∀ a : ℕ, (a : ℚ) ≤ 2 * (num / den) ↔ a * den ≤ 2 * num := by
    intro a
    rw [← mul_div_assoc, le_div_iff₀ hpos]
    exact_mod_cast Iff.rfl
  have hright : ∀ a : ℕ, 2 * (num / den : ℚ) ≤ a ↔ 2 * num ≤ a * den := by
    intro a
    rw [← mul_div_assoc, div_le_iff₀ hpos]
    exact_mod_cast Iff.rfl
  unfold rounds RoundsTo
  split
  · rw [hleft, hright, Bool.and_eq_true, decide_eq_true_eq, decide_eq_true_eq]
  · rw [← not_le, ← not_le, hleft, hright, Bool.and_eq_true, decide_eq_true_eq,
      decide_eq_true_eq, not_le, not_le]

theorem RoundsTo.lower {q : ℚ} {m : ℕ} (h : RoundsTo q m) :
    (units (m - 1) + units m : ℕ) ≤ 2 * q := by
  unfold RoundsTo at h
  split at h
  · exact h.1
  · exact h.1.le

theorem RoundsTo.upper {q : ℚ} {m : ℕ} (h : RoundsTo q m) :
    2 * q ≤ (units m + units (m + 1) : ℕ) := by
  unfold RoundsTo at h
  split at h
  · exact h.2
  · exact h.2.le

theorem roundsTo_units (m : ℕ) : RoundsTo (units m) m := by
  have hlow : units (m - 1) ≤ units m := units_strictMono.monotone (Nat.sub_le m 1)
  have hhigh := units_lt_succ m
  unfold RoundsTo
  split
  · next heven =>
    constructor
    · exact_mod_cast (by omega : units (m - 1) + units m ≤ 2 * units m)
    · exact_mod_cast (by omega : 2 * units m ≤ units m + units (m + 1))
  · next hodd =>
    have hlow' : units (m - 1) < units m := units_strictMono (by omega)
    constructor
    · exact_mod_cast (by omega : units (m - 1) + units m < 2 * units m)
    · exact_mod_cast (by omega : 2 * units m < units m + units (m + 1))

theorem RoundsTo.half_le {q : ℚ} {m : ℕ} (h : RoundsTo q m) (hm : m ≠ 0) : 1 / 2 ≤ q := by
  have h1 : units 1 ≤ units m := units_strictMono.monotone (by omega)
  have h2 : (1 : ℚ) ≤ (units (m - 1) + units m : ℕ) := by
    rw [units_one] at h1
    exact_mod_cast (by omega : 1 ≤ units (m - 1) + units m)
  have := h.lower
  linarith

private theorem units_mul_two_pow (k : ℕ) : units ((k + 1) * 2 ^ 52) = 2 ^ (52 + k) := by
  rw [units_of_le (by omega), Nat.mul_mod_left, Nat.mul_div_cancel _ (by norm_num), add_zero,
    Nat.add_sub_cancel, pow_add]

theorem RoundsTo.le_two_pow {q : ℚ} {m : ℕ} (h : RoundsTo q m) (hm : m < 2047 * 2 ^ 52) :
    q ≤ 2 ^ 2098 := by
  have h1 : units m ≤ units ((2046 + 1) * 2 ^ 52) := units_strictMono.monotone hm.le
  have h2 : units (m + 1) ≤ units ((2046 + 1) * 2 ^ 52) := units_strictMono.monotone hm
  rw [units_mul_two_pow] at h1 h2
  have h3 : ((units m + units (m + 1) : ℕ) : ℚ) ≤ 2 * 2 ^ 2098 := by
    exact_mod_cast (by omega : units m + units (m + 1) ≤ 2 * 2 ^ 2098)
  exact le_of_mul_le_mul_left (h.upper.trans h3) two_pos

end FiniteDouble

namespace Decimal

/-- The absolute value of a decimal, in units of the least positive double. -/
def inUnits (d : Decimal) : ℚ :=
  d.coefficient * 10 ^ d.exponent * 2 ^ 1074

theorem quotient_snd_pos (d : Decimal) : 0 < d.quotient.2 := by
  unfold quotient
  split
  · exact Nat.one_pos
  · exact Nat.pow_pos (by norm_num)

theorem quotient_div (d : Decimal) : (d.quotient.1 / d.quotient.2 : ℚ) = d.inUnits := by
  unfold quotient inUnits
  split
  · next e he =>
    rw [he, Nat.shiftLeft_eq, Nat.pow_eq, Nat.cast_one, div_one, Int.ofNat_eq_natCast,
      zpow_natCast]
    simp only [Nat.cast_mul, Nat.cast_pow, Nat.cast_ofNat]
  · next e he =>
    rw [he, Nat.shiftLeft_eq, Nat.pow_eq, zpow_negSucc]
    simp only [Nat.cast_mul, Nat.cast_pow, Nat.cast_ofNat]
    rw [div_eq_mul_inv, mul_right_comm]

private theorem two_pow_le_ten_pow : (2 : ℚ) ^ 1203 ≤ 10 ^ 401 := by
  calc (2 : ℚ) ^ 1203 = (2 ^ 3) ^ 401 := by rw [← pow_mul]
    _ ≤ 10 ^ 401 := pow_le_pow_left₀ (by norm_num) (by norm_num) 401

private theorem ten_zpow_lt_half {t : ℤ} (ht : t < -400) : (10 : ℚ) ^ t * 2 ^ 1074 < 1 / 2 := by
  have h1 : (10 : ℚ) ^ t ≤ 10 ^ (-(401 : ℕ) : ℤ) := zpow_le_zpow_right₀ (by norm_num) (by omega)
  have h2 : (2 : ℚ) ^ 1074 < 10 ^ 401 * (1 / 2) := by
    calc (2 : ℚ) ^ 1074 < 2 ^ 1202 := pow_lt_pow_right₀ (by norm_num) (by norm_num)
      _ = 2 ^ 1203 * (1 / 2) := by
        rw [pow_succ 2 1202, mul_assoc, mul_one_div_cancel two_ne_zero, mul_one]
      _ ≤ 10 ^ 401 * (1 / 2) := mul_le_mul_of_nonneg_right two_pow_le_ten_pow (by norm_num)
  rw [zpow_neg, zpow_natCast] at h1
  calc (10 : ℚ) ^ t * 2 ^ 1074 ≤ (10 ^ 401)⁻¹ * 2 ^ 1074 :=
        mul_le_mul_of_nonneg_right h1 (pow_nonneg (by norm_num) _)
    _ < 1 / 2 := (inv_mul_lt_iff₀ (pow_pos (by norm_num) _)).2 h2

private theorem two_pow_lt_ten_zpow {t : ℤ} (ht : 400 < t) :
    (2 : ℚ) ^ 2098 < 10 ^ t * 2 ^ 1074 := by
  have h1 : (10 : ℚ) ^ 401 ≤ 10 ^ t := by
    calc (10 : ℚ) ^ 401 = 10 ^ ((401 : ℕ) : ℤ) := (zpow_natCast _ _).symm
      _ ≤ 10 ^ t := zpow_le_zpow_right₀ (by norm_num) (by omega)
  calc (2 : ℚ) ^ 2098 < 2 ^ (1203 + 1074) := pow_lt_pow_right₀ (by norm_num) (by norm_num)
    _ = 2 ^ 1203 * 2 ^ 1074 := pow_add _ _ _
    _ ≤ 10 ^ t * 2 ^ 1074 :=
      mul_le_mul_of_nonneg_right (two_pow_le_ten_pow.trans h1) (pow_nonneg (by norm_num) _)

variable {d : Decimal} {m : ℕ}

theorem coefficient_ne_zero (h : FiniteDouble.RoundsTo d.inUnits m) (hm : m ≠ 0) :
    d.coefficient ≠ 0 := by
  intro hc
  have := h.half_le hm
  rw [inUnits, hc, Nat.cast_zero, zero_mul, zero_mul] at this
  norm_num at this

/-- The first digit of what rounds to a finite magnitude stands for at most `10 ^ 400`. -/
theorem add_exponent_le {a : ℕ} (h : FiniteDouble.RoundsTo d.inUnits m)
    (hfin : m < 2047 * 2 ^ 52) (ha : 10 ^ a ≤ d.coefficient) : a + d.exponent ≤ 400 := by
  by_contra hlt
  have h1 : (10 : ℚ) ^ a ≤ d.coefficient := by exact_mod_cast ha
  have h2 : (10 : ℚ) ^ (a + d.exponent) * 2 ^ 1074 ≤ d.inUnits := by
    rw [zpow_add₀ (by norm_num : (10 : ℚ) ≠ 0), zpow_natCast, inUnits]
    exact mul_le_mul_of_nonneg_right (mul_le_mul_of_nonneg_right h1 (by positivity))
      (pow_nonneg (by norm_num) _)
  exact absurd ((h2.trans (h.le_two_pow hfin))) (not_le.2 (two_pow_lt_ten_zpow (not_le.1 hlt)))

theorem le_add_exponent {b : ℕ} (h : FiniteDouble.RoundsTo d.inUnits m) (hm : m ≠ 0)
    (hb : d.coefficient < 10 ^ b) : -400 ≤ b + d.exponent := by
  by_contra hlt
  have h1 : (d.coefficient : ℚ) ≤ 10 ^ b := by exact_mod_cast hb.le
  have h2 : d.inUnits ≤ (10 : ℚ) ^ (b + d.exponent) * 2 ^ 1074 := by
    rw [zpow_add₀ (by norm_num : (10 : ℚ) ≠ 0), zpow_natCast, inUnits]
    exact mul_le_mul_of_nonneg_right (mul_le_mul_of_nonneg_right h1 (by positivity))
      (pow_nonneg (by norm_num) _)
  exact absurd ((h.half_le hm).trans h2) (not_le.2 (ten_zpow_lt_half (not_le.1 hlt)))

private theorem lt_ten_pow_log2 (c : ℕ) : c < 10 ^ (c.log2 + 1) :=
  lt_of_lt_of_le Nat.lt_log2_self (Nat.pow_le_pow_left (by norm_num) _)

/-- **A decimal that rounds to a double is read as that double.** -/
theorem toDouble?_eq_of_roundsTo {x : FiniteDouble} (hneg : d.negative = x.negative)
    (hx : x.magnitude ≠ 0) (h : FiniteDouble.RoundsTo d.inUnits x.magnitude) :
    d.toDouble? = some x := by
  have hfin := x.magnitude_lt
  have hnearest : FiniteDouble.nearestMagnitude d.quotient.1 d.quotient.2 = x.magnitude := by
    apply FiniteDouble.nearestMagnitude_eq d.quotient_snd_pos (by omega)
    rwa [FiniteDouble.rounds_iff d.quotient_snd_pos, quotient_div]
  have hc := coefficient_ne_zero h hx
  have hlarge : d.exponent ≤ 400 := by
    simpa using add_exponent_le (a := 0) h hfin (by rw [pow_zero]; omega)
  have hsmall := le_add_exponent h hx (lt_ten_pow_log2 d.coefficient)
  unfold toDouble?
  rw [if_neg hc, if_neg (by omega), if_neg (by push_cast at hsmall; omega)]
  dsimp only
  rw [hnearest, FiniteDouble.ofMagnitude?, dif_pos hfin, hneg]

theorem coefficient_eq_zero (h : d.inUnits = 0) : d.coefficient = 0 := by
  rw [inUnits, mul_eq_zero, mul_eq_zero] at h
  rcases h with (h | h) | h
  · exact_mod_cast h
  · exact absurd h (by positivity)
  · exact absurd h (pow_ne_zero _ two_ne_zero)

theorem toDouble?_of_inUnits_eq_zero {x : FiniteDouble} (hneg : d.negative = x.negative)
    (h : d.inUnits = 0) (hx : x.magnitude = 0) : d.toDouble? = some x := by
  obtain ⟨s, m, hm⟩ := x
  subst hneg hx
  rw [toDouble?, if_pos (coefficient_eq_zero h)]
  rfl

end Decimal

end KeyControl
