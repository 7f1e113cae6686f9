import KeyControl.Number.Decimal

/-!
# Numerals of RFC 8259

A JSON numeral is an optional minus sign, digits without needless leading zeros, an optional
fraction and an optional exponent.  Without fraction and exponent it is an integer, and with one of
them a decimal.

The standard leaves limits to the reader.  There are two here: an integer takes up at most
`integerLimit` characters, and of an exponent only the first five digits count, leading zeros aside
(`exponentValue`).  Both are far beyond what any message needs: the integers of messages have twenty
digits at most, and the exponents of doubles three.
-/

namespace KeyControl

/-! ## The value of decimal digits

Core's `Nat.ofDigitChars` multiplies the whole value by ten for every digit, which takes too long
for a numeral that fills a frame.  `digitsValue` gathers digits in blocks and touches the value of
the blocks before only once a block; by `digitsValue_eq` it is the same number. -/

/-- Digits read so far: the value of the full blocks, and the value and the number of the digits
after them. -/
structure DigitBlocks where
  full : Nat
  rest : Nat
  count : Nat

namespace DigitBlocks

/-- The number of digits in a block. -/
def size : Nat := 512

/-- The number that the digits spell. -/
def value (s : DigitBlocks) : Nat :=
  s.full * Nat.pow 10 s.count + s.rest

/-- Take one more digit. -/
def push (s : DigitBlocks) (c : Char) : DigitBlocks :=
  let rest := 10 * s.rest + (c.toNat - '0'.toNat)
  if s.count + 1 = size then ⟨s.full * Nat.pow 10 size + rest, 0, 0⟩
  else ⟨s.full, rest, s.count + 1⟩

/-- One more digit makes the number ten times as great and adds the digit. -/
theorem value_push (s : DigitBlocks) (c : Char) :
    (s.push c).value = 10 * s.value + (c.toNat - '0'.toNat) := by
  have hpow : s.full * Nat.pow 10 (s.count + 1) = 10 * (s.full * Nat.pow 10 s.count) := by
    show s.full * (Nat.pow 10 s.count * 10) = _
    rw [← Nat.mul_assoc, Nat.mul_comm]
  have hzero : Nat.pow 10 0 = 1 := rfl
  unfold push
  dsimp only
  split
  · next hsize =>
    simp only [value, ← hsize, hpow, hzero, Nat.mul_one]
    omega
  · simp only [value, hpow]
    omega

end DigitBlocks

/-- The number that decimal digits spell. -/
def digitsValue (ds : List Char) : Nat :=
  (ds.foldl DigitBlocks.push ⟨0, 0, 0⟩).value

/-- **Gathering digits in blocks changes nothing.** -/
theorem digitsValue_eq (ds : List Char) : digitsValue ds = Nat.ofDigitChars 10 ds 0 := by
  have key : ∀ (l : List Char) (s : DigitBlocks),
      (l.foldl DigitBlocks.push s).value = Nat.ofDigitChars 10 l s.value := by
    intro l
    induction l with
    | nil => intro s; rfl
    | cons c l ih =>
      intro s
      rw [List.foldl_cons, ih, DigitBlocks.value_push]
      rfl
  exact key ds ⟨0, 0, 0⟩

/-! ## Numerals -/

/-- What a numeral stands for. -/
inductive Numeral where
  | integer (n : Int)
  | decimal (d : Decimal)
deriving DecidableEq

namespace Numeral

/-- Cut off the digits at the front. -/
def splitDigits (cs : List Char) : List Char × List Char :=
  (cs.takeWhile Char.isDigit, cs.dropWhile Char.isDigit)

/-- The digits of the fraction, which are none if there is no point, and what follows them. -/
def fraction? : List Char → Option (List Char × List Char)
  | '.' :: cs =>
    match splitDigits cs with
    | ([], _) => none
    | (ds, rest) => some (ds, rest)
  | cs => some ([], cs)

/-- The greatest number of characters that an integer may take up, its sign included. -/
def integerLimit : Nat := 4300

/-- Take a digit of an exponent.  Once the value has five digits, further ones are passed over. -/
def exponentStep (n : Nat) (c : Char) : Nat :=
  if n < 10000 then 10 * n + (c.toNat - '0'.toNat) else n

/-- The value of the digits of an exponent. -/
def exponentValue (ds : List Char) : Nat :=
  ds.foldl exponentStep 0

theorem le_ofDigitChars (ds : List Char) (n : Nat) : n ≤ Nat.ofDigitChars 10 ds n := by
  induction ds generalizing n with
  | nil => exact Nat.le_refl n
  | cons d ds ih =>
    refine Nat.le_trans ?_ (ih (10 * n + (d.toNat - '0'.toNat)))
    omega

/-- **Up to five digits an exponent has the value that its digits spell.** -/
theorem exponentValue_eq {ds : List Char} (h : Nat.ofDigitChars 10 ds 0 < 100000) :
    exponentValue ds = Nat.ofDigitChars 10 ds 0 := by
  have key : ∀ (l : List Char) (n : Nat), Nat.ofDigitChars 10 l n < 100000 →
      l.foldl exponentStep n = Nat.ofDigitChars 10 l n := by
    intro l
    induction l with
    | nil => intro n _; rfl
    | cons d l ih =>
      intro n hn
      have hle : 10 * n + (d.toNat - '0'.toNat) < 100000 :=
        Nat.lt_of_le_of_lt (le_ofDigitChars l _) hn
      have hstep : exponentStep n d = 10 * n + (d.toNat - '0'.toNat) := if_pos (by omega)
      rw [List.foldl_cons, hstep]
      exact ih _ hn
  exact key ds 0 h

/-- The digits of an exponent up to the end of the text. -/
def magnitude? (cs : List Char) : Option Nat :=
  match splitDigits cs with
  | ([], _) => none
  | (ds, []) => some (exponentValue ds)
  | _ => none

/-- The exponent at the end of a numeral, with its sign; no text, no exponent. -/
def exponent? : List Char → Option (Option Int)
  | [] => some none
  | c :: cs =>
    if c = 'e' ∨ c = 'E' then
      match cs with
      | '-' :: ds => (magnitude? ds).map (some <| - Int.ofNat ·)
      | '+' :: ds => (magnitude? ds).map (some <| Int.ofNat ·)
      | ds => (magnitude? ds).map (some <| Int.ofNat ·)
    else none

/-- Whether digits are those of a natural number written without needless zeros. -/
def canonical : List Char → Bool
  | [] => false
  | ['0'] => true
  | '0' :: _ => false
  | _ => true

/-- The value of a numeral without its sign. -/
def unsigned? (negative : Bool) (cs : List Char) : Option Numeral :=
  let (whole, rest) := splitDigits cs
  if canonical whole then
    match fraction? rest with
    | none => none
    | some (tenths, rest) =>
      match exponent? rest with
      | none => none
      | some e =>
        if tenths.isEmpty && e.isNone then
          if whole.length + negative.toNat ≤ integerLimit then
            let n := Int.ofNat (digitsValue whole)
            some (.integer (if negative then -n else n))
          else none
        else
          let coefficient := digitsValue (whole ++ tenths)
          some (.decimal ⟨negative, coefficient, e.getD 0 - tenths.length⟩)
  else none

/-- The value of a numeral. -/
def ofChars? : List Char → Option Numeral
  | '-' :: cs => unsigned? true cs
  | cs => unsigned? false cs

end Numeral

end KeyControl
