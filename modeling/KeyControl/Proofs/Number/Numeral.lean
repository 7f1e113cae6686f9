import KeyControl.Number.Layout
import KeyControl.Number.Numeral
import KeyControl.Proofs.Number.Shortest
import Mathlib.Tactic.FieldSimp

/-!
# Written numbers are numerals

Integers and decimals are written as numerals, and the numeral stands for the number that was
written.

* `Numeral.ofChars?_integerText` --- an integer of 64 bits is read back.
* `Numeral.ofChars?_write` --- a decimal is read as a decimal of the same sign and value.  In
  positional form the digits on both sides of the point are read as one coefficient, so the exponent
  is minus the number of those behind it; zeros that only fill up the places multiply the
  coefficient.  In scientific form coefficient and exponent come back as they were.
* `FiniteDouble.exists_toDouble?_write` --- hence the written form of a double is a decimal numeral
  that is read as that double.
* `numeralChar_of_mem_write`, `numeralChar_of_mem_integerText` --- written numbers hold digits,
  points, signs and exponent marks only.
-/

namespace KeyControl

/-- The characters that written numbers consist of. -/
def numeralChar (c : Char) : Bool :=
  c.isDigit || c == '.' || c == '-' || c == '+' || c == 'e'

namespace Layout

/-! ## Digits -/

theorem isDigit_of_mem_digits {n : ℕ} {c : Char} (h : c ∈ digits n) : c.isDigit = true :=
  Nat.isDigit_of_mem_toDigits (by norm_num) (by norm_num) h

theorem digits_ne_nil (n : ℕ) : digits n ≠ [] :=
  Nat.toDigits_ne_nil

theorem length_digits_pos (n : ℕ) : 0 < (digits n).length :=
  Nat.length_toDigits_pos

@[simp] theorem ofDigitChars_digits (n : ℕ) : Nat.ofDigitChars 10 (digits n) 0 = n :=
  Nat.ofDigitChars_ten_toDigits

theorem length_digits_le_iff {n k : ℕ} (hk : 0 < k) : (digits n).length ≤ k ↔ n < 10 ^ k :=
  Nat.length_toDigits_le_iff (by norm_num) hk

theorem lt_ten_pow_length_digits (n : ℕ) : n < 10 ^ (digits n).length :=
  (length_digits_le_iff (length_digits_pos n)).1 le_rfl

theorem ten_pow_le_of_ne_zero {n : ℕ} (hn : n ≠ 0) : 10 ^ ((digits n).length - 1) ≤ n := by
  by_contra hlt
  rcases Nat.eq_zero_or_pos ((digits n).length - 1) with h0 | hpos
  · rw [h0, pow_zero] at hlt
    omega
  · have := (length_digits_le_iff hpos).2 (not_le.1 hlt)
    omega

theorem exists_digits_eq_cons {n : ℕ} (hn : n ≠ 0) :
    ∃ d ds, digits n = d :: ds ∧ d ≠ '0' := by
  induction n using Nat.strong_induction_on with
  | _ n ih =>
    by_cases hlt : n < 10
    · have hdigit : ∀ k < 10, k ≠ 0 → k.digitChar ≠ '0' := by decide
      exact ⟨n.digitChar, [], Nat.toDigits_of_lt_base hlt, hdigit n hlt hn⟩
    · obtain ⟨d, ds, hd, hne⟩ := ih (n / 10) (by omega) (by omega)
      refine ⟨d, ds ++ [(n % 10).digitChar], ?_, hne⟩
      calc digits n = digits (n / 10) ++ [(n % 10).digitChar] :=
            Nat.toDigits_of_base_le (by norm_num) (not_lt.1 hlt)
        _ = d :: (ds ++ [(n % 10).digitChar]) := by rw [hd, List.cons_append]

end Layout

namespace Numeral

open Layout

/-! ## Parts of a numeral -/

theorem splitDigits_append {ds rest : List Char} (hds : ∀ c ∈ ds, c.isDigit = true)
    (hrest : ∀ c ∈ rest.head?, c.isDigit = false) : splitDigits (ds ++ rest) = (ds, rest) := by
  unfold splitDigits
  rw [List.takeWhile_append_of_pos hds, List.dropWhile_append_of_pos hds]
  cases rest with
  | nil => simp
  | cons c rest =>
    have hc : c.isDigit = false := hrest c rfl
    simp [hc]

theorem splitDigits_self {ds : List Char} (hds : ∀ c ∈ ds, c.isDigit = true) :
    splitDigits ds = (ds, []) := by
  simpa using @splitDigits_append ds [] hds (by simp)

theorem canonical_cons {d : Char} (hd : d ≠ '0') (ds : List Char) :
    canonical (d :: ds) = true := by
  unfold canonical
  split <;> simp_all

theorem canonical_singleton (d : Char) : canonical [d] = true := by
  by_cases hd : d = '0'
  · rw [hd]
    rfl
  · exact canonical_cons hd []

theorem canonical_digits (n : ℕ) : canonical (digits n) = true := by
  by_cases hn : n = 0
  · subst hn
    decide
  · obtain ⟨d, ds, hd, hne⟩ := exists_digits_eq_cons hn
    rw [hd]
    exact canonical_cons hne ds

/-- The digits of a fraction behind the point, which is left out where there are none. -/
def fractionText : List Char → List Char
  | [] => []
  | ds => '.' :: ds

/-- **The fraction is read back.** -/
theorem fraction?_append {ds rest : List Char} (hds : ∀ c ∈ ds, c.isDigit = true)
    (hrest : ∀ c ∈ rest.head?, c.isDigit = false ∧ c ≠ '.') :
    fraction? (fractionText ds ++ rest) = some (ds, rest) := by
  cases ds with
  | nil =>
    cases rest with
    | nil => rfl
    | cons c rest =>
      have hc : c ≠ '.' := (hrest c rfl).2
      simp [fractionText, fraction?, hc]
  | cons d ds =>
    have hrest' : ∀ c ∈ rest.head?, c.isDigit = false := fun c hc => (hrest c hc).1
    rw [fractionText, List.cons_append, fraction?, splitDigits_append hds hrest']
    simp

theorem magnitude?_of_digits {ds : List Char} (hds : ∀ c ∈ ds, c.isDigit = true) (hne : ds ≠ [])
    (hlt : Nat.ofDigitChars 10 ds 0 < 100000) :
    magnitude? ds = some (Nat.ofDigitChars 10 ds 0) := by
  unfold magnitude?
  rw [splitDigits_self hds, ← exponentValue_eq hlt]
  cases ds with
  | nil => exact absurd rfl hne
  | cons d ds => rfl

theorem exponent?_of_digits {ds : List Char} (hds : ∀ c ∈ ds, c.isDigit = true) :
    exponent? ('e' :: ds) = (magnitude? ds).map (some <| Int.ofNat ·) := by
  cases ds with
  | nil => rfl
  | cons d ds =>
    have hd : d.isDigit = true := hds d (List.mem_cons_self ..)
    have hminus : d ≠ '-' := by rintro rfl; exact absurd hd (by decide)
    have hplus : d ≠ '+' := by rintro rfl; exact absurd hd (by decide)
    simp [exponent?, hminus, hplus]

/-- **The exponent is read back**, up to five digits. -/
theorem exponent?_exponent (l : Layout) {e : ℤ} (he : e.natAbs < 100000) :
    exponent? (l.exponent e) = some (some e) := by
  let ds := List.replicate (l.exponentDigits - (digits e.natAbs).length) '0' ++ digits e.natAbs
  have hds : ∀ c ∈ ds, c.isDigit = true := by
    intro c hc
    rcases List.mem_append.1 hc with hc | hc
    · rw [List.eq_of_mem_replicate hc]
      rfl
    · exact isDigit_of_mem_digits hc
  have hne : ds ≠ [] := List.append_ne_nil_of_right_ne_nil _ (digits_ne_nil _)
  have hvalue : Nat.ofDigitChars 10 ds 0 = e.natAbs := by
    rw [Nat.ofDigitChars_append, Nat.ofDigitChars_replicate_zero, mul_zero, ofDigitChars_digits]
  have hmagnitude : magnitude? ds = some e.natAbs := by
    rw [magnitude?_of_digits hds hne (by rwa [hvalue]), hvalue]
  unfold Layout.exponent
  dsimp only
  by_cases hneg : e < 0
  · rw [if_pos hneg, List.append_assoc]
    show (magnitude? ds).map (some <| -Int.ofNat ·) = some (some e)
    rw [hmagnitude, Option.map_some, Int.ofNat_eq_natCast, Int.ofNat_natAbs_of_nonpos hneg.le,
      neg_neg]
  · have hvalue' : (magnitude? ds).map (some <| Int.ofNat ·) = some (some e) := by
      rw [hmagnitude, Option.map_some, Int.ofNat_eq_natCast,
        Int.natAbs_of_nonneg (not_lt.1 hneg)]
    rw [if_neg hneg, List.append_assoc]
    cases l.plus with
    | false => exact (exponent?_of_digits hds).trans hvalue'
    | true => exact hvalue'

/-! ## Whole numerals -/

theorem unsigned?_digits (negative : Bool) {ds : List Char} (hds : ∀ c ∈ ds, c.isDigit = true)
    (hcanonical : canonical ds = true) (hlength : ds.length + negative.toNat ≤ integerLimit) :
    unsigned? negative ds = some (.integer
      (if negative then -Int.ofNat (Nat.ofDigitChars 10 ds 0)
        else Int.ofNat (Nat.ofDigitChars 10 ds 0))) := by
  simp [unsigned?, splitDigits_self hds, hcanonical, fraction?, exponent?, hlength,
    digitsValue_eq]

/-- **A numeral with a fraction or an exponent is a decimal**: its coefficient has the digits on
both sides of the point. -/
theorem unsigned?_decimal (negative : Bool) {whole tenths tail : List Char} {e : Option ℤ}
    (hwhole : ∀ c ∈ whole, c.isDigit = true) (hcanonical : canonical whole = true)
    (htenths : ∀ c ∈ tenths, c.isDigit = true)
    (htail : ∀ c ∈ tail.head?, c = 'e') (hexponent : exponent? tail = some e)
    (hdecimal : tenths ≠ [] ∨ e.isSome = true) :
    unsigned? negative (whole ++ (fractionText tenths ++ tail)) = some (.decimal
      ⟨negative, Nat.ofDigitChars 10 (whole ++ tenths) 0, e.getD 0 - tenths.length⟩) := by
  have htail' : ∀ c ∈ tail.head?, c.isDigit = false ∧ c ≠ '.' := by
    intro c hc
    rw [htail c hc]
    decide
  have hrest : ∀ c ∈ (fractionText tenths ++ tail).head?, c.isDigit = false := by
    cases tenths with
    | nil => exact fun c hc => (htail' c hc).1
    | cons t ts =>
      intro c hc
      obtain rfl : '.' = c := by simpa [fractionText] using hc
      rfl
  have hnot : (tenths.isEmpty && e.isNone) = false := by
    rcases hdecimal with h | h
    · rw [List.isEmpty_eq_false_iff.2 h, Bool.false_and]
    · rw [Option.isNone_eq_false_iff.2 h, Bool.and_false]
  unfold unsigned?
  rw [splitDigits_append hwhole hrest]
  dsimp only
  rw [if_pos hcanonical, fraction?_append htenths htail']
  dsimp only
  rw [hexponent]
  dsimp only
  rw [hnot, if_neg Bool.false_ne_true, digitsValue_eq]

theorem ofChars?_of_unsigned? {cs : List Char} {n : Numeral}
    (h : unsigned? false cs = some n) : ofChars? cs = some n := by
  unfold ofChars?
  split
  · next cs =>
    have hnone : unsigned? false ('-' :: cs) = none := rfl
    rw [hnone] at h
    cases h
  · exact h

/-- **An integer of at most 4299 digits is read back.** -/
theorem ofChars?_integerText {n : ℤ} (hn : (digits n.natAbs).length < integerLimit) :
    ofChars? (integerText n) = some (.integer n) := by
  cases n with
  | ofNat k =>
    apply ofChars?_of_unsigned?
    rw [integerText, unsigned?_digits false (fun c hc => isDigit_of_mem_digits hc)
      (canonical_digits k) hn.le, ofDigitChars_digits]
    rfl
  | negSucc k =>
    show unsigned? true (digits (k + 1)) = _
    rw [@unsigned?_digits true (digits (k + 1)) (fun c hc => isDigit_of_mem_digits hc)
      (canonical_digits _) hn, ofDigitChars_digits]
    rfl

/-! ## Written decimals -/

private theorem unsigned?_point (negative : Bool) {whole tenths : List Char}
    (hwhole : ∀ c ∈ whole, c.isDigit = true) (hcanonical : canonical whole = true)
    (htenths : ∀ c ∈ tenths, c.isDigit = true) (hne : tenths ≠ []) :
    unsigned? negative (whole ++ '.' :: tenths) = some (.decimal
      ⟨negative, Nat.ofDigitChars 10 (whole ++ tenths) 0, -tenths.length⟩) := by
  have h := @unsigned?_decimal negative whole tenths [] none hwhole hcanonical htenths
    (by simp) rfl (Or.inl hne)
  rw [List.append_nil, Option.getD_none, zero_sub] at h
  cases tenths with
  | nil => exact absurd rfl hne
  | cons t ts => exact h

private theorem isDigit_of_mem_zeros_append {z c : ℕ} {d : Char}
    (h : d ∈ List.replicate z '0' ++ digits c) : d.isDigit = true := by
  rcases List.mem_append.1 h with h | h
  · rw [List.eq_of_mem_replicate h]
    rfl
  · exact isDigit_of_mem_digits h

/-- A number below one: zeros fill up the places behind the point. -/
private theorem unsigned?_below_one (negative : Bool) (z c : ℕ) :
    unsigned? negative ('0' :: '.' :: (List.replicate z '0' ++ digits c)) =
      some (.decimal ⟨negative, c, -(z + (digits c).length : ℕ)⟩) := by
  have hvalue : Nat.ofDigitChars 10 (['0'] ++ (List.replicate z '0' ++ digits c)) 0 = c := by
    rw [Nat.ofDigitChars_append, Nat.ofDigitChars_append]
    show Nat.ofDigitChars 10 (digits c) (Nat.ofDigitChars 10 (List.replicate z '0') 0) = c
    rw [Nat.ofDigitChars_replicate_zero, mul_zero, ofDigitChars_digits]
  have h := @unsigned?_point negative ['0'] (List.replicate z '0' ++ digits c)
    (List.forall_mem_singleton.2 rfl) rfl (fun d hd => isDigit_of_mem_zeros_append hd)
    (List.append_ne_nil_of_right_ne_nil _ (digits_ne_nil c))
  rwa [hvalue, List.length_append, List.length_replicate] at h

/-- The point stands among the digits. -/
private theorem unsigned?_between (negative : Bool) {c k : ℕ} (hc : c ≠ 0) (hk : k ≠ 0)
    (hlt : k < (digits c).length) :
    unsigned? negative ((digits c).take k ++ '.' :: (digits c).drop k) =
      some (.decimal ⟨negative, c, -((digits c).length - k : ℕ)⟩) := by
  have hcanonical : canonical ((digits c).take k) = true := by
    obtain ⟨d, ds, hd, hne⟩ := exists_digits_eq_cons hc
    obtain ⟨j, rfl⟩ := Nat.exists_eq_succ_of_ne_zero hk
    rw [hd, List.take_succ_cons]
    exact canonical_cons hne _
  have h := unsigned?_point negative (fun d hd => isDigit_of_mem_digits (List.mem_of_mem_take hd))
    hcanonical (fun d hd => isDigit_of_mem_digits (List.mem_of_mem_drop hd))
    (List.drop_eq_nil_iff.not.2 (not_le.2 hlt))
  rwa [List.take_append_drop, ofDigitChars_digits, List.length_drop] at h

/-- An integer: zeros fill up the places before the point, and one stands behind it. -/
private theorem unsigned?_above_digits (negative : Bool) {c : ℕ} (hc : c ≠ 0) (z : ℕ) :
    unsigned? negative (digits c ++ List.replicate z '0' ++ ['.', '0']) =
      some (.decimal ⟨negative, 10 ^ (z + 1) * c, -1⟩) := by
  have hcanonical : canonical (digits c ++ List.replicate z '0') = true := by
    obtain ⟨d, ds, hd, hne⟩ := exists_digits_eq_cons hc
    rw [hd, List.cons_append]
    exact canonical_cons hne _
  have hdigits : ∀ d ∈ digits c ++ List.replicate z '0', d.isDigit = true := by
    intro d hd
    exact isDigit_of_mem_zeros_append (List.mem_append.2 (List.mem_append.1 hd).symm)
  have hvalue : Nat.ofDigitChars 10 (digits c ++ List.replicate z '0' ++ ['0']) 0 =
      10 ^ (z + 1) * c := by
    rw [List.append_assoc, ← List.replicate_one, List.replicate_append_replicate,
      Nat.ofDigitChars_append, Nat.ofDigitChars_replicate_zero, ofDigitChars_digits]
  have h := @unsigned?_point negative _ ['0'] hdigits hcanonical
    (List.forall_mem_singleton.2 rfl) (List.cons_ne_nil _ _)
  rwa [hvalue] at h

/-- Moving the point by zeros does not change the value. -/
private theorem inUnits_ten_pow_mul (negative : Bool) (c z : ℕ) :
    (⟨negative, 10 ^ (z + 1) * c, -1⟩ : Decimal).inUnits =
      (⟨negative, c, z⟩ : Decimal).inUnits := by
  unfold Decimal.inUnits
  congr 1
  push_cast
  rw [pow_succ, zpow_natCast, zpow_neg_one]
  field_simp

/-- **A decimal in positional form is read as one of the same value.** -/
theorem unsigned?_positional (negative : Bool) {c : ℕ} (hc : c ≠ 0) (e : ℤ) :
    ∃ d : Decimal, unsigned? negative (positional ((digits c).length + e) (digits c)) =
        some (.decimal d) ∧
      d.negative = negative ∧ d.inUnits = (⟨negative, c, e⟩ : Decimal).inUnits := by
  unfold positional
  split
  · next k hk =>
    rw [Int.ofNat_eq_natCast] at hk
    by_cases h0 : k = 0
    · rw [if_pos h0]
      refine ⟨_, unsigned?_below_one negative 0 c, rfl, ?_⟩
      rw [zero_add, show -((digits c).length : ℤ) = e by omega]
    · rw [if_neg h0]
      by_cases hlt : k < (digits c).length
      · rw [if_pos hlt]
        refine ⟨_, unsigned?_between negative hc h0 hlt, rfl, ?_⟩
        rw [show -(((digits c).length - k : ℕ) : ℤ) = e by omega]
      · rw [if_neg hlt]
        refine ⟨_, unsigned?_above_digits negative hc _, rfl, ?_⟩
        rw [inUnits_ten_pow_mul, show ((k - (digits c).length : ℕ) : ℤ) = e by omega]
  · next k hk =>
    rw [Int.negSucc_eq] at hk
    refine ⟨_, unsigned?_below_one negative (k + 1) c, rfl, ?_⟩
    rw [show -((k + 1 + (digits c).length : ℕ) : ℤ) = e by push_cast; omega]

/-- **A decimal in scientific form comes back as it was**, if its exponent has up to five digits. -/
theorem unsigned?_scientific (l : Layout) (negative : Bool) (c : ℕ) (e : ℤ)
    (he : ((digits c).length + e - 1).natAbs < 100000) :
    unsigned? negative (l.scientific ((digits c).length + e - 1) (digits c)) =
      some (.decimal ⟨negative, c, e⟩) := by
  obtain ⟨d, ds, hcons⟩ := List.exists_cons_of_ne_nil (digits_ne_nil c)
  have hdigits : ∀ x ∈ d :: ds, x.isDigit = true := by
    intro x hx
    rw [← hcons] at hx
    exact isDigit_of_mem_digits hx
  have hmark : ∀ x ∈ (l.exponent ((digits c).length + e - 1)).head?, x = 'e' :=
    fun x hx => (Option.some.inj hx).symm
  have hvalue : Nat.ofDigitChars 10 ([d] ++ ds) 0 = c := by
    rw [List.singleton_append, ← hcons, ofDigitChars_digits]
  have hexponent : ((digits c).length + e - 1 : ℤ) - ds.length = e := by
    rw [hcons, List.length_cons]
    push_cast
    ring
  have hshape : l.scientific ((digits c).length + e - 1) (digits c) =
      [d] ++ (fractionText ds ++ l.exponent ((digits c).length + e - 1)) := by
    rw [hcons]
    cases ds <;> rfl
  have h := @unsigned?_decimal negative [d] _ _ _ (by simpa using hdigits d (by simp))
    (canonical_singleton d) (fun x hx => hdigits x (List.mem_cons_of_mem d hx)) hmark
    (exponent?_exponent l he) (Or.inr rfl)
  rw [hvalue, Option.getD_some, hexponent] at h
  rw [hshape, h]

/-- **A written decimal is read as one of the same sign and value**, if its exponent in scientific
form has up to five digits. -/
theorem ofChars?_write (l : Layout) (d : Decimal)
    (hplaces : d.coefficient ≠ 0 →
      ((digits d.coefficient).length + d.exponent - 1).natAbs < 100000) :
    ∃ d' : Decimal, ofChars? (l.write d) = some (.decimal d') ∧ d'.negative = d.negative ∧
      d'.inUnits = d.inUnits := by
  obtain ⟨negative, c, e⟩ := d
  dsimp only at hplaces
  unfold Layout.write
  dsimp only
  generalize hbody : (if c = 0 then ['0', '.', '0'] else _) = body
  have key : ∃ d' : Decimal, unsigned? negative body = some (.decimal d') ∧
      d'.negative = negative ∧ d'.inUnits = (⟨negative, c, e⟩ : Decimal).inUnits := by
    rw [← hbody]
    split_ifs with h0 hplain
    · refine ⟨⟨negative, 0, -1⟩, by cases negative <;> rfl, rfl, ?_⟩
      rw [h0]
      simp [Decimal.inUnits]
    · exact unsigned?_positional negative h0 e
    · exact ⟨_, unsigned?_scientific l negative c e (hplaces h0), rfl, rfl⟩
  obtain ⟨d', hd', hrest⟩ := key
  refine ⟨d', ?_, hrest⟩
  cases negative with
  | false => exact ofChars?_of_unsigned? hd'
  | true => exact hd'

end Numeral

namespace FiniteDouble

open Layout

/-- The first digit of the shortest decimal of a double stands within 400 places of the point. -/
theorem natAbs_places_shortest (x : FiniteDouble) (hc : x.shortest.coefficient ≠ 0) :
    ((digits x.shortest.coefficient).length + x.shortest.exponent - 1).natAbs < 100000 := by
  have hx : x.magnitude ≠ 0 := by
    intro hx
    exact hc (Decimal.coefficient_eq_zero (inUnits_shortest_of_magnitude hx))
  have hrounds := roundsTo_shortest hx
  have hhigh := Decimal.add_exponent_le hrounds x.magnitude_lt (ten_pow_le_of_ne_zero hc)
  have hlow := Decimal.le_add_exponent hrounds hx (lt_ten_pow_length_digits _)
  have hpos := length_digits_pos x.shortest.coefficient
  omega

/-- **The written form of a double is a decimal numeral that is read as that double.** -/
theorem exists_toDouble?_write (l : Layout) (x : FiniteDouble) :
    ∃ d : Decimal, Numeral.ofChars? (l.write x.shortest) = some (.decimal d) ∧
      d.toDouble? = some x := by
  obtain ⟨d, hd, hneg, hunits⟩ :=
    Numeral.ofChars?_write l x.shortest (natAbs_places_shortest x)
  rw [shortest_negative] at hneg
  exact ⟨d, hd, toDouble?_of_inUnits_eq_shortest hneg hunits⟩

end FiniteDouble

/-! ## The characters of a written number -/

theorem numeralChar_of_isDigit {c : Char} (h : c.isDigit = true) : numeralChar c = true := by
  simp [numeralChar, h]

namespace Layout

private theorem numeralChar_of_mem_zeros {n : ℕ} :
    ∀ x ∈ List.replicate n '0', numeralChar x = true := by
  intro x hx
  rw [List.eq_of_mem_replicate hx]
  rfl

private theorem numeralChar_of_mem_digits (n : ℕ) : ∀ x ∈ digits n, numeralChar x = true :=
  fun _ hx => numeralChar_of_isDigit (isDigit_of_mem_digits hx)

variable {ds : List Char}

private theorem numeralChar_of_mem_positional (places : ℤ)
    (hds : ∀ x ∈ ds, numeralChar x = true) : ∀ x ∈ positional places ds, numeralChar x = true := by
  have htake : ∀ k, ∀ x ∈ ds.take k, numeralChar x = true :=
    fun k x hx => hds x (List.mem_of_mem_take hx)
  have hdrop : ∀ k, ∀ x ∈ ds.drop k, numeralChar x = true :=
    fun k x hx => hds x (List.mem_of_mem_drop hx)
  have hzeros : ∀ k, ∀ x ∈ List.replicate k '0', numeralChar x = true :=
    fun k => numeralChar_of_mem_zeros
  unfold positional
  split
  · next k =>
    split_ifs
    · exact List.forall_mem_cons.2 ⟨rfl, List.forall_mem_cons.2 ⟨rfl, hds⟩⟩
    · exact List.forall_mem_append.2 ⟨htake k, List.forall_mem_cons.2 ⟨rfl, hdrop k⟩⟩
    · exact List.forall_mem_append.2
        ⟨List.forall_mem_append.2 ⟨hds, hzeros _⟩, List.all_eq_true.1 rfl⟩
  · next k =>
    exact List.forall_mem_cons.2
      ⟨rfl, List.forall_mem_cons.2 ⟨rfl, List.forall_mem_append.2 ⟨hzeros _, hds⟩⟩⟩

private theorem numeralChar_of_mem_exponent (l : Layout) (e : ℤ) :
    ∀ x ∈ l.exponent e, numeralChar x = true := by
  have hsign : ∀ x ∈ (if e < 0 then ['-'] else if l.plus then ['+'] else []),
      numeralChar x = true := by
    split_ifs <;> exact List.all_eq_true.1 rfl
  exact List.forall_mem_cons.2 ⟨rfl, List.forall_mem_append.2
    ⟨List.forall_mem_append.2 ⟨hsign, numeralChar_of_mem_zeros⟩, numeralChar_of_mem_digits _⟩⟩

private theorem numeralChar_of_mem_scientific (l : Layout) (e : ℤ)
    (hds : ∀ x ∈ ds, numeralChar x = true) : ∀ x ∈ l.scientific e ds, numeralChar x = true := by
  have hexponent := numeralChar_of_mem_exponent l e
  unfold scientific
  split
  · exact hexponent
  · exact List.forall_mem_cons.2 ⟨hds _ (List.mem_cons_self ..), hexponent⟩
  · obtain ⟨hd, hds⟩ := List.forall_mem_cons.1 hds
    exact List.forall_mem_cons.2 ⟨hd, List.forall_mem_cons.2
      ⟨rfl, List.forall_mem_append.2 ⟨hds, hexponent⟩⟩⟩

/-- **A written decimal consists of digits, points, signs and exponent marks.** -/
theorem numeralChar_of_mem_write (l : Layout) (d : Decimal) :
    ∀ x ∈ l.write d, numeralChar x = true := by
  have hdigits := numeralChar_of_mem_digits d.coefficient
  have hbody : ∀ x ∈ (if d.coefficient = 0 then ['0', '.', '0']
      else if l.plainFrom < (digits d.coefficient).length + d.exponent ∧
        (digits d.coefficient).length + d.exponent ≤ l.plainBelow then
          positional ((digits d.coefficient).length + d.exponent) (digits d.coefficient)
        else l.scientific ((digits d.coefficient).length + d.exponent - 1) (digits d.coefficient)),
      numeralChar x = true := by
    split_ifs
    · exact List.all_eq_true.1 rfl
    · exact numeralChar_of_mem_positional _ hdigits
    · exact numeralChar_of_mem_scientific l _ hdigits
  unfold Layout.write
  dsimp only
  by_cases hneg : d.negative = true
  · rw [if_pos hneg]
    exact List.forall_mem_cons.2 ⟨rfl, hbody⟩
  · rw [if_neg hneg]
    exact hbody

/-- **A written integer consists of digits and a sign.** -/
theorem numeralChar_of_mem_integerText (n : ℤ) :
    ∀ x ∈ integerText n, numeralChar x = true := by
  unfold integerText
  split
  · exact numeralChar_of_mem_digits _
  · exact List.forall_mem_cons.2 ⟨rfl, numeralChar_of_mem_digits _⟩

end Layout

end KeyControl
