import KeyControl.Number.Decimal

/-!
# Laying out a decimal as text

The digits of a decimal are one question, where the point goes is another.  A `Layout` holds the
decisions on the second: which numbers are written positionally, and how the exponent of the others
is spelled.
-/

namespace KeyControl

/-- How decimals are written.  A number whose first digit stands for `10 ^ e` is written
positionally if `plainFrom ≤ e < plainBelow`, and with an exponent otherwise. -/
structure Layout where
  plainFrom : Int
  plainBelow : Int
  /-- Whether an exponent that is not negative has a plus sign. -/
  plus : Bool
  /-- The least number of digits of an exponent. -/
  exponentDigits : Nat

namespace Layout

/-- The digits of a natural number, in base ten. -/
def digits (n : Nat) : List Char :=
  Nat.toDigits 10 n

/-- Digits with a point after the first `places` of them; zeros stand in where there are fewer, and
at least one digit stands on each side. -/
def positional (places : Int) (ds : List Char) : List Char :=
  match places with
  | .ofNat k =>
    if k = 0 then '0' :: '.' :: ds
    else if k < ds.length then ds.take k ++ '.' :: ds.drop k
    else ds ++ List.replicate (k - ds.length) '0' ++ ['.', '0']
  | .negSucc k => '0' :: '.' :: (List.replicate (k + 1) '0' ++ ds)

/-- The exponent of a decimal in scientific form. -/
def exponent (l : Layout) (e : Int) : List Char :=
  let ds := digits e.natAbs
  let sign := if e < 0 then ['-'] else if l.plus then ['+'] else []
  'e' :: (sign ++ List.replicate (l.exponentDigits - ds.length) '0' ++ ds)

/-- Digits with a point after the first, if there are more, and an exponent. -/
def scientific (l : Layout) (e : Int) : List Char → List Char
  | [] => l.exponent e
  | [d] => d :: l.exponent e
  | d :: ds => d :: '.' :: (ds ++ l.exponent e)

/-- The text of a decimal. -/
def write (l : Layout) (d : Decimal) : List Char :=
  let ds := digits d.coefficient
  let places : Int := ds.length + d.exponent
  let body :=
    if d.coefficient = 0 then ['0', '.', '0']
    else if l.plainFrom < places ∧ places ≤ l.plainBelow then positional places ds
    else l.scientific (places - 1) ds
  if d.negative then '-' :: body else body

end Layout

/-- The text of a double: the fewest digits that read back, laid out, or the name of a value that is
not finite. -/
def Layout.writeDouble (l : Layout) : Double → List Char
  | .finite x => l.write x.shortest
  | .infinite false => ['i', 'n', 'f']
  | .infinite true => ['-', 'i', 'n', 'f']
  | .nan => ['n', 'a', 'n']

/-- The text of an integer, in base ten. -/
def integerText (n : Int) : List Char :=
  match n with
  | .ofNat k => Layout.digits k
  | .negSucc k => '-' :: Layout.digits (k + 1)

end KeyControl
