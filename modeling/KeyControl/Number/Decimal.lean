import KeyControl.Number.Double

/-!
# Decimals and the doubles nearest to them

A decimal is a signed coefficient times a power of ten.  `Decimal.toDouble?` rounds it to the
nearest double, ties to even, by exact arithmetic on naturals.  A decimal past the greatest finite
double has none; one that is too small becomes a zero of its sign.

Every double is the nearest one to many decimals.  `FiniteDouble.shortest` picks the decimal with
the fewest digits, and among those the one closest to the double; of two equally close the one with
an even last digit.
-/

namespace KeyControl

/-- The number `coefficient * 10 ^ exponent`, negated if `negative`. -/
structure Decimal where
  negative : Bool
  coefficient : Nat
  exponent : Int
deriving DecidableEq

namespace Decimal

/-- The absolute value as a quotient of naturals, in units of the least positive double. -/
def quotient (d : Decimal) : Nat × Nat :=
  match d.exponent with
  | .ofNat e => ((d.coefficient * Nat.pow 10 e) <<< 1074, 1)
  | .negSucc e => (d.coefficient <<< 1074, Nat.pow 10 (e + 1))

/-- The double nearest to a decimal.  Decimals that are beyond doubt too large or too small are
settled without writing their powers of ten out. -/
def toDouble? (d : Decimal) : Option FiniteDouble :=
  if d.coefficient = 0 then some (.zero d.negative)
  else if 400 < d.exponent then none
  else if d.exponent + (d.coefficient.log2 + 1) < -400 then some (.zero d.negative)
  else
    let (num, den) := d.quotient
    FiniteDouble.ofMagnitude? d.negative (FiniteDouble.nearestMagnitude num den)

end Decimal

/-! ## The shortest decimal that reads back

The search goes through the powers of ten from a coarse one downwards.  On each it looks at the two
neighbours of the double among the multiples of that power: if any multiple reads back, one of these
two does.  It ends at the latest where the double itself is a multiple. -/

namespace FiniteDouble

/-- The multiple of `10 ^ exponent` to write for a magnitude, if one of the two neighbours of its
value reads back to it. -/
def candidate? (m : Nat) (exponent : Int) : Option Nat :=
  -- a power of ten of `p` units is `scale * den` parts of `1 / den` units
  let (scale, den) := Decimal.quotient ⟨false, 1, exponent⟩
  let value := units m * den
  let below := value / scale
  let above := below + 1
  match rounds (below * scale) den m, rounds (above * scale) den m with
  | false, false => none
  | true, false => some below
  | false, true => some above
  | true, true =>
    let rest := value - below * scale
    if 2 * rest < scale then some below
    else if scale < 2 * rest then some above
    else if below % 2 = 0 then some below else some above

/-- Search the powers of ten from `10 ^ (steps - 1074)` downwards.  A value is a multiple of
`10 ^ -1074` in any case, so the search ends there with the exact value. -/
def search (m : Nat) : Nat → Nat × Int
  | 0 => (units m * Nat.pow 5 1074, -1074)
  | steps + 1 =>
    let exponent : Int := (steps + 1 : Nat) - 1074
    match candidate? m exponent with
    | some c => (c, exponent)
    | none => search m steps

/-- A power of ten above the value of a magnitude, as a number of steps above `10 ^ -1074`. -/
def coarsest (m : Nat) : Nat :=
  let bits : Int := (units m).log2 + 1 - 1074
  ((if 0 ≤ bits then bits * 31 / 100 else bits * 30 / 100) + 1076).toNat

/-- The decimal with the fewest digits that reads back to a double. -/
def shortest (x : FiniteDouble) : Decimal :=
  if x.magnitude = 0 then ⟨x.negative, 0, 0⟩
  else
    let (coefficient, exponent) := search x.magnitude (coarsest x.magnitude)
    ⟨x.negative, coefficient, exponent⟩

end FiniteDouble

end KeyControl
