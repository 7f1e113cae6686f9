/-!
# Doubles

A finite double is a sign and a magnitude, where the magnitude is the number that the exponent and
fraction fields form together.  Magnitudes are ordered as the values they denote, and every one of
those values is a natural multiple of the least positive double, 2 to the power -1074.
`FiniteDouble.units` is that multiple.  It makes rounding a matter of natural numbers: the double
nearest to a quotient is found by comparing products (`nearestMagnitude`).
-/

namespace KeyControl

/-- A double that is neither infinite nor a NaN. -/
structure FiniteDouble where
  negative : Bool
  magnitude : Nat
  magnitude_lt : magnitude < 0x7FF0000000000000
deriving DecidableEq

/-- An IEEE 754 double; the NaNs are not told apart. -/
inductive Double where
  | finite (x : FiniteDouble)
  | infinite (negative : Bool)
  | nan
deriving DecidableEq

namespace FiniteDouble

def zero (negative : Bool) : FiniteDouble :=
  ⟨negative, 0, by decide⟩

/-- The value of a magnitude, counted in units of the least positive double.  Below 2 to the power
52 the magnitude is the count; above, the fraction gets its leading bit and the exponent shifts
it. -/
def units (m : Nat) : Nat :=
  if m < 0x10000000000000 then m
  else (0x10000000000000 + m % 0x10000000000000) <<< (m / 0x10000000000000 - 1)

/-- The greatest magnitude below `m + 1 <<< k` whose value does not exceed `num / den` units, found
bit by bit from the top; `m` is one such magnitude. -/
def floorMagnitude (num den : Nat) : Nat → Nat → Nat
  | 0, m => m
  | k + 1, m =>
    floorMagnitude num den k (if units (m + 1 <<< k) * den ≤ num then m + 1 <<< k else m)

/-- The magnitude nearest to `num / den` units; of two equally near, the even one. -/
def nearestMagnitude (num den : Nat) : Nat :=
  let m := floorMagnitude num den 63 0
  let middle := (units m + units (m + 1)) * den
  if 2 * num < middle then m
  else if middle < 2 * num then m + 1
  else if m % 2 = 0 then m else m + 1

/-- Whether `num / den` units lies in the interval that rounds to the magnitude `m`.  The two ends
belong to it exactly if `m` is even. -/
def rounds (num den m : Nat) : Bool :=
  let lower := (units (m - 1) + units m) * den
  let upper := (units m + units (m + 1)) * den
  if m % 2 = 0 then decide (lower ≤ 2 * num) && decide (2 * num ≤ upper)
  else decide (lower < 2 * num) && decide (2 * num < upper)

/-- The double of a sign and a magnitude, unless that magnitude is past the finite ones. -/
def ofMagnitude? (negative : Bool) (m : Nat) : Option FiniteDouble :=
  if h : m < 0x7FF0000000000000 then some ⟨negative, m, h⟩ else none

def isZero (x : FiniteDouble) : Bool :=
  x.magnitude == 0

/-- Whether two doubles have the same value: equal, or both zero. -/
def sameValue (x y : FiniteDouble) : Bool :=
  x.magnitude == y.magnitude && (x.negative == y.negative || x.isZero)

/-- Whether a double has exactly the value of an integer. -/
def equalsInt (x : FiniteDouble) (n : Int) : Bool :=
  let scaled : Int := units x.magnitude
  decide ((if x.negative then -scaled else scaled) = n * (1 <<< 1074 : Nat))

end FiniteDouble

namespace Double

/-- The double whose 64 bits, sign first, form the number given. -/
def ofBits (bits : Nat) : Double :=
  let negative := decide (bits / 0x8000000000000000 % 2 = 1)
  let m := bits % 0x8000000000000000
  if h : m < 0x7FF0000000000000 then .finite ⟨negative, m, h⟩
  else if m = 0x7FF0000000000000 then .infinite negative
  else .nan

/-- The 64 bits of a double as one number. -/
def toBits : Double → Nat
  | .finite x => (if x.negative then 0x8000000000000000 else 0) + x.magnitude
  | .infinite negative => (if negative then 0x8000000000000000 else 0) + 0x7FF0000000000000
  | .nan => 0x7FF8000000000000

theorem ofBits_eq_finite {bits m : Nat} {s : Bool} (h : m < 0x7FF0000000000000)
    (hm : bits % 0x8000000000000000 = m)
    (hs : decide (bits / 0x8000000000000000 % 2 = 1) = s) :
    ofBits bits = .finite ⟨s, m, h⟩ := by
  subst hm hs
  unfold ofBits
  rw [dif_pos h]

/-- Bits and double determine each other. -/
@[simp] theorem ofBits_toBits (x : Double) : ofBits x.toBits = x := by
  cases x with
  | finite x =>
    obtain ⟨s, m, h⟩ := x
    cases s with
    | false =>
      apply ofBits_eq_finite h
      · show (0 + m) % 0x8000000000000000 = m
        omega
      · apply decide_eq_false
        show ¬ (0 + m) / 0x8000000000000000 % 2 = 1
        omega
    | true =>
      apply ofBits_eq_finite h
      · show (0x8000000000000000 + m) % 0x8000000000000000 = m
        omega
      · apply decide_eq_true
        show (0x8000000000000000 + m) / 0x8000000000000000 % 2 = 1
        omega
  | infinite s => cases s <;> decide
  | nan => decide

end Double

end KeyControl
