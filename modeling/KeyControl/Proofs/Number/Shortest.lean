import KeyControl.Number.Decimal
import KeyControl.Proofs.Number.Rounding

/-!
# The shortest decimal reads back

Whatever the search for the shortest decimal returns rounds to the magnitude it was asked for: a
neighbour on some power of ten is returned only after the test that it rounds (`candidate?`), and
the last resort is the exact value.  So the decimal of a double, and every other decimal of its sign
and value, is read as that double (`toDouble?_of_inUnits_eq_shortest`), from whichever power of ten
the search starts.
-/

namespace KeyControl.FiniteDouble

private theorem inUnits_eq_mul_div (s t : Bool) (c : ℕ) (e : ℤ) :
    (⟨s, c, e⟩ : Decimal).inUnits =
      ((c * (Decimal.quotient ⟨t, 1, e⟩).1 : ℕ) : ℚ) / (Decimal.quotient ⟨t, 1, e⟩).2 := by
  rw [Nat.cast_mul, mul_div_assoc, Decimal.quotient_div]
  simp only [Decimal.inUnits, Nat.cast_one, one_mul]
  rw [mul_assoc]

variable {m c : ℕ} {e : ℤ}

theorem roundsTo_of_candidate? (h : candidate? m e = some c) (s : Bool) :
    RoundsTo (⟨s, c, e⟩ : Decimal).inUnits m := by
  rw [inUnits_eq_mul_div s false c e, ← rounds_iff (Decimal.quotient_snd_pos _)]
  unfold candidate? at h
  generalize Decimal.quotient ⟨false, 1, e⟩ = q at h ⊢
  obtain ⟨scale, den⟩ := q
  dsimp only at h ⊢
  generalize hbelow : rounds (units m * den / scale * scale) den m = below at h
  generalize habove : rounds ((units m * den / scale + 1) * scale) den m = above at h
  cases below <;> cases above
  · cases h
  · rwa [← Option.some.inj h]
  · rwa [← Option.some.inj h]
  · dsimp only at h
    split_ifs at h <;> rwa [← Option.some.inj h]

/-- The last resort of the search is the exact value. -/
private theorem inUnits_search_zero (s : Bool) (m : ℕ) :
    (⟨s, (search m 0).1, (search m 0).2⟩ : Decimal).inUnits = units m := by
  have h10 : (10 : ℚ) ^ (-1074 : ℤ) = ((5 * 2) ^ 1074)⁻¹ := by
    rw [show (-1074 : ℤ) = -((1074 : ℕ) : ℤ) from rfl, zpow_neg, zpow_natCast]
    norm_num only
  have h5 : (5 : ℚ) ^ 1074 ≠ 0 := pow_ne_zero _ (by norm_num)
  have h2 : (2 : ℚ) ^ 1074 ≠ 0 := pow_ne_zero _ (by norm_num)
  simp only [Decimal.inUnits, search, Nat.pow_eq, Nat.cast_mul, Nat.cast_pow, Nat.cast_ofNat]
  rw [h10, mul_pow, mul_inv, mul_assoc, mul_assoc, mul_assoc, inv_mul_cancel₀ h2, mul_one,
    mul_inv_cancel₀ h5, mul_one]

/-- **What the search returns rounds to the magnitude**, wherever it starts. -/
theorem roundsTo_search (m steps : ℕ) (s : Bool) :
    RoundsTo (⟨s, (search m steps).1, (search m steps).2⟩ : Decimal).inUnits m := by
  induction steps with
  | zero =>
    rw [inUnits_search_zero]
    exact roundsTo_units m
  | succ steps ih =>
    unfold search
    dsimp only
    split
    · next c hc => exact roundsTo_of_candidate? hc s
    · exact ih

variable {x : FiniteDouble}

@[simp] theorem shortest_negative (x : FiniteDouble) : x.shortest.negative = x.negative := by
  unfold shortest
  split <;> rfl

theorem inUnits_shortest_of_magnitude (h : x.magnitude = 0) : x.shortest.inUnits = 0 := by
  rw [shortest, if_pos h, Decimal.inUnits, Nat.cast_zero, zero_mul, zero_mul]

theorem roundsTo_shortest (h : x.magnitude ≠ 0) : RoundsTo x.shortest.inUnits x.magnitude := by
  rw [shortest, if_neg h]
  exact roundsTo_search _ _ _

/-- **A decimal of the sign and value of the shortest one is read as the double.** -/
theorem toDouble?_of_inUnits_eq_shortest {d : Decimal} (hneg : d.negative = x.negative)
    (h : d.inUnits = x.shortest.inUnits) : d.toDouble? = some x := by
  by_cases hx : x.magnitude = 0
  · apply Decimal.toDouble?_of_inUnits_eq_zero hneg _ hx
    rw [h, inUnits_shortest_of_magnitude hx]
  · apply Decimal.toDouble?_eq_of_roundsTo hneg hx
    rw [h]
    exact roundsTo_shortest hx

end KeyControl.FiniteDouble
