import KeyControl.Settings.Basic
import Mathlib.Data.List.TakeWhile
import Mathlib.Data.Nat.Digits.Defs

/-!
# How integers are spelled

`Text.Spells` says which texts spell an integer, and which one, without reading them: blanks around a
sign and digits, where the digits may be those of any script and one underscore may stand between two
of them.  `Text.integer?` reads exactly these spellings, up to its limit on the number of digits
(`Text.integer?_eq_some_iff_spells`).

The reader takes one code point after another and knows only whether the last one was a digit.
`Spelling.Continues` says what may come next in either case, and is what the induction over the
text is on (`Spelling.foldlM_step?_eq_some_iff`).  No digit, underscore or sign is blank, so trimming
a spelling leaves its sign and its digits.
-/

namespace KeyControl

/-! ## Spellings -/

namespace Text

/-- A text spells digits, first digit first.  One underscore may stand between two of them. -/
inductive SpellsDigits : Text → List Nat → Prop where
  | last {p : CodePoint} {d : Nat} (h : decimalDigit? p.value = some d) : SpellsDigits [p] [d]
  | next {p : CodePoint} {d : Nat} {t : Text} {ds : List Nat} (h : decimalDigit? p.value = some d)
    (rest : SpellsDigits t ds) : SpellsDigits (p :: t) (d :: ds)
  | underscore {p : CodePoint} {d : Nat} {t : Text} {ds : List Nat}
    (h : decimalDigit? p.value = some d) (rest : SpellsDigits t ds) :
    SpellsDigits (p :: .scalar '_' :: t) (d :: ds)

/-- A text spells an integer by its digits, with or without a sign ahead of them. -/
inductive SpellsSigned : Text → Int → Prop where
  | unsigned {t : Text} {ds : List Nat} (h : SpellsDigits t ds) :
    SpellsSigned t (Nat.ofDigits 10 ds.reverse : Nat)
  | plus {t : Text} {ds : List Nat} (h : SpellsDigits t ds) :
    SpellsSigned (.scalar '+' :: t) (Nat.ofDigits 10 ds.reverse : Nat)
  | minus {t : Text} {ds : List Nat} (h : SpellsDigits t ds) :
    SpellsSigned (.scalar '-' :: t) (-(Nat.ofDigits 10 ds.reverse : Nat))

/-- A text spells an integer, with or without blanks around it. -/
def Spells (t : Text) (n : Int) : Prop :=
  ∃ before core after : Text, t = before ++ core ++ after ∧ before.blank = true ∧
    after.blank = true ∧ core.SpellsSigned n

/-- The number of decimal digits in a text. -/
def digitCount (t : Text) : Nat :=
  t.countP fun p => (decimalDigit? p.value).isSome

theorem SpellsDigits.length_eq {t : Text} {ds : List Nat} (h : SpellsDigits t ds) :
    ds.length = t.digitCount := by
  induction h with
  | last h => simp [digitCount, h]
  | next h _ ih => simp [digitCount, h, ih]
  | underscore h _ ih =>
    have hunderscore : (decimalDigit? (CodePoint.scalar '_').value).isSome = false := rfl
    simp [digitCount, h, hunderscore, ih]

end Text

/-! ## Digits, one code point after another -/

theorem CodePoint.eq_underscore {p : CodePoint} (h : p.value = 0x5F) : p = .scalar '_' := by
  cases p with
  | scalar c =>
    obtain rfl : c = '_' := Char.toNat_inj.1 h
    rfl
  | surrogate i =>
    rw [value] at h
    omega

namespace Spelling

/-- What may follow: digits at any time, but an underscore or nothing only behind a digit. -/
inductive Continues : Bool → Text → List Nat → Prop where
  | digits {afterDigit : Bool} {t : Text} {ds : List Nat} (h : t.SpellsDigits ds) :
    Continues afterDigit t ds
  | underscore {t : Text} {ds : List Nat} (h : t.SpellsDigits ds) :
    Continues true (.scalar '_' :: t) ds
  | nothing : Continues true [] []

variable {afterDigit : Bool} {t : Text} {ds digits acc : List Nat} {p : CodePoint} {d : Nat}

theorem continues_false_iff : Continues false t ds ↔ t.SpellsDigits ds :=
  ⟨fun | .digits h => h, .digits⟩

theorem continues_nil_iff : Continues afterDigit [] ds ↔ afterDigit = true ∧ ds = [] := by
  constructor
  · intro h
    cases h with
    | digits h => cases h
    | nothing => exact ⟨rfl, rfl⟩
  · rintro ⟨rfl, rfl⟩
    exact .nothing

theorem continues_cons_of_digit (h : decimalDigit? p.value = some d) :
    Continues afterDigit (p :: t) ds ↔ ∃ rest, ds = d :: rest ∧ Continues true t rest := by
  constructor
  · intro hds
    cases hds with
    | digits hds =>
      cases hds with
      | last h' =>
        cases h.symm.trans h'
        exact ⟨[], rfl, .nothing⟩
      | next h' hrest =>
        cases h.symm.trans h'
        exact ⟨_, rfl, .digits hrest⟩
      | underscore h' hrest =>
        cases h.symm.trans h'
        exact ⟨_, rfl, .underscore hrest⟩
    | underscore _ => cases h
  · rintro ⟨rest, rfl, hrest⟩
    cases hrest with
    | digits hrest => exact .digits (.next h hrest)
    | underscore hrest => exact .digits (.underscore h hrest)
    | nothing => exact .digits (.last h)

/-- Of the others, only an underscore behind a digit may follow, and digits have to follow it. -/
theorem continues_cons_of_not_digit (h : decimalDigit? p.value = none) :
    Continues afterDigit (p :: t) ds ↔
      (p.value = 0x5F ∧ afterDigit = true) ∧ Continues false t ds := by
  constructor
  · intro hds
    cases hds with
    | digits hds =>
      cases hds with
      | last h' => cases h.symm.trans h'
      | next h' _ => cases h.symm.trans h'
      | underscore h' _ => cases h.symm.trans h'
    | underscore hrest => exact ⟨⟨rfl, rfl⟩, .digits hrest⟩
  · rintro ⟨⟨hp, rfl⟩, hrest⟩
    rw [CodePoint.eq_underscore hp]
    exact .underscore (continues_false_iff.1 hrest)

/-- **Code points are taken exactly if they may follow each other.** -/
theorem foldlM_step?_eq_some_iff :
    t.foldlM step? ⟨acc, afterDigit⟩ = some ⟨digits, true⟩ ↔
      ∃ ds, Continues afterDigit t ds ∧ digits = ds.reverse ++ acc := by
  induction t generalizing acc afterDigit with
  | nil =>
    simp only [continues_nil_iff]
    simp [eq_comm, and_comm]
  | cons p t ih =>
    rw [List.foldlM_cons, step?]
    cases h : decimalDigit? p.value with
    | some d =>
      simp only [continues_cons_of_digit h]
      refine ih.trans ⟨?_, ?_⟩
      · rintro ⟨rest, hrest, rfl⟩
        exact ⟨d :: rest, ⟨rest, rfl, hrest⟩, by simp⟩
      · rintro ⟨_, ⟨rest, rfl, hrest⟩, rfl⟩
        exact ⟨rest, hrest, by simp⟩
    | none =>
      simp only [continues_cons_of_not_digit h]
      split
      · next hp =>
        refine ih.trans ?_
        simp [hp]
      · next hp => simp [hp]

theorem value_eq_ofDigits (ds : List Nat) : value ds = Nat.ofDigits 10 ds := by
  induction ds with
  | nil => rfl
  | cons d ds ih => rw [value, ih, Nat.ofDigits_cons, Nat.add_comm]

theorem foldlM_step?_start_iff :
    t.foldlM step? ⟨[], false⟩ = some ⟨ds.reverse, true⟩ ↔ t.SpellsDigits ds := by
  simp [foldlM_step?_eq_some_iff, continues_false_iff]

/-- **Digits are read exactly as they are spelled**, unless there are too many. -/
theorem natural?_eq_some_iff {n : Nat} :
    natural? t = some n ↔
      t.digitCount ≤ spellingLimit ∧ ∃ ds, t.SpellsDigits ds ∧ n = Nat.ofDigits 10 ds.reverse := by
  rw [natural?]
  constructor
  · intro h
    split at h
    · next digits hdigits =>
      rw [← List.reverse_reverse digits, foldlM_step?_start_iff] at hdigits
      have hlength := hdigits.length_eq
      rw [List.length_reverse] at hlength
      split at h
      · next hlimit =>
        refine ⟨hlength ▸ hlimit, _, hdigits, ?_⟩
        rw [List.reverse_reverse, ← value_eq_ofDigits, Option.some.inj h]
      · cases h
    · cases h
  · rintro ⟨hlimit, ds, hds, rfl⟩
    rw [foldlM_step?_start_iff.2 hds]
    dsimp only
    rw [List.length_reverse, hds.length_eq, if_pos hlimit, value_eq_ofDigits]

theorem map_natural?_eq_some_iff {f : Nat → Int} {n : Int} :
    (natural? t).map f = some n ↔
      t.digitCount ≤ spellingLimit ∧
        ∃ ds, t.SpellsDigits ds ∧ n = f (Nat.ofDigits 10 ds.reverse) := by
  rw [Option.map_eq_some_iff]
  constructor
  · rintro ⟨m, hm, rfl⟩
    obtain ⟨hlimit, ds, hds, rfl⟩ := natural?_eq_some_iff.1 hm
    exact ⟨hlimit, ds, hds, rfl⟩
  · rintro ⟨hlimit, ds, hds, rfl⟩
    exact ⟨_, natural?_eq_some_iff.2 ⟨hlimit, ds, hds, rfl⟩, rfl⟩

end Spelling

/-! ## Signs -/

namespace Text

theorem not_spellsDigits_cons {p : CodePoint} (h : decimalDigit? p.value = none) {t : Text}
    {ds : List Nat} : ¬ SpellsDigits (p :: t) ds := by
  rintro (h' | ⟨h', _⟩ | ⟨h', _⟩) <;> cases h.symm.trans h'

theorem digitCount_cons_of_not_digit {p : CodePoint} (h : decimalDigit? p.value = none)
    (t : Text) : digitCount (p :: t) = t.digitCount := by
  rw [digitCount, List.countP_cons_of_neg, digitCount]
  rw [h]
  exact Bool.false_ne_true

theorem spellsSigned_minus_iff {t : Text} {n : Int} :
    SpellsSigned (.scalar '-' :: t) n ↔
      ∃ ds, t.SpellsDigits ds ∧ n = -(Nat.ofDigits 10 ds.reverse : Nat) := by
  constructor
  · intro h
    cases h with
    | unsigned h => exact absurd h (not_spellsDigits_cons rfl)
    | minus h => exact ⟨_, h, rfl⟩
  · rintro ⟨ds, h, rfl⟩
    exact .minus h

theorem spellsSigned_plus_iff {t : Text} {n : Int} :
    SpellsSigned (.scalar '+' :: t) n ↔
      ∃ ds, t.SpellsDigits ds ∧ n = (Nat.ofDigits 10 ds.reverse : Nat) := by
  constructor
  · intro h
    cases h with
    | unsigned h => exact absurd h (not_spellsDigits_cons rfl)
    | plus h => exact ⟨_, h, rfl⟩
  · rintro ⟨ds, h, rfl⟩
    exact .plus h

theorem spellsSigned_iff_of_unsigned {t : Text} {n : Int} (hminus : ∀ rest, t ≠ .scalar '-' :: rest)
    (hplus : ∀ rest, t ≠ .scalar '+' :: rest) :
    t.SpellsSigned n ↔ ∃ ds, t.SpellsDigits ds ∧ n = (Nat.ofDigits 10 ds.reverse : Nat) := by
  constructor
  · intro h
    cases h with
    | unsigned h => exact ⟨_, h, rfl⟩
    | plus _ => exact absurd rfl (hplus _)
    | minus _ => exact absurd rfl (hminus _)
  · rintro ⟨ds, h, rfl⟩
    exact .unsigned h

/-- **What is left of a text when it is trimmed is read exactly as it is spelled**, unless there are
too many digits. -/
theorem integer?_eq_some_iff {t : Text} {n : Int} :
    t.integer? = some n ↔
      t.trimAroundInteger.digitCount ≤ spellingLimit ∧ t.trimAroundInteger.SpellsSigned n := by
  rw [integer?]
  generalize t.trimAroundInteger = core
  split
  · rw [Spelling.map_natural?_eq_some_iff, digitCount_cons_of_not_digit rfl, spellsSigned_minus_iff]
    rfl
  · rw [Spelling.map_natural?_eq_some_iff, digitCount_cons_of_not_digit rfl, spellsSigned_plus_iff]
    rfl
  · next hminus hplus =>
    rw [Spelling.map_natural?_eq_some_iff, spellsSigned_iff_of_unsigned hminus hplus]
    rfl

end Text

/-! ## Blanks -/

theorem blankCode_eq_false_of_digit {n d : Nat} (h : decimalDigit? n = some d) :
    blankCode n = false := by
  have hall : ∀ z ∈ digitZeros, ∀ k < 10, blankCode (z + k) = false := by decide +kernel
  obtain ⟨z, hz, rfl⟩ := Option.map_eq_some_iff.1 h
  have hrange := List.find?_some hz
  simp only [Bool.and_eq_true, decide_eq_true_eq] at hrange
  rw [← Nat.add_sub_of_le hrange.1]
  exact hall z (List.mem_of_find?_eq_some hz) (n - z) (by omega)

/-- Apart from information separators, what may surround an integer is what is blank. -/
theorem CodePoint.surroundsInteger_eq {p : CodePoint} (h : ¬ (28 ≤ p.value ∧ p.value ≤ 31)) :
    p.surroundsInteger = p.isBlank := by
  rw [surroundsInteger, ← Bool.decide_and, decide_eq_false h, Bool.not_false, Bool.and_true]

namespace Text

theorem SpellsDigits.not_blank {t : Text} {ds : List Nat} (h : t.SpellsDigits ds) :
    ∀ p ∈ t, p.isBlank = false := by
  induction h with
  | last h => exact List.forall_mem_singleton.2 (blankCode_eq_false_of_digit h)
  | next h _ ih => exact List.forall_mem_cons.2 ⟨blankCode_eq_false_of_digit h, ih⟩
  | underscore h _ ih =>
    exact List.forall_mem_cons.2
      ⟨blankCode_eq_false_of_digit h, List.forall_mem_cons.2 ⟨rfl, ih⟩⟩

theorem SpellsSigned.not_blank {t : Text} {n : Int} (h : t.SpellsSigned n) :
    ∀ p ∈ t, p.isBlank = false := by
  cases h with
  | unsigned h => exact h.not_blank
  | plus h => exact List.forall_mem_cons.2 ⟨rfl, h.not_blank⟩
  | minus h => exact List.forall_mem_cons.2 ⟨rfl, h.not_blank⟩

theorem SpellsSigned.ne_nil {t : Text} {n : Int} (h : t.SpellsSigned n) : t ≠ [] := by
  rintro rfl
  cases h with
  | unsigned h => cases h

/-- Trimming takes off what may surround an integer, at both ends. -/
theorem exists_trimAroundInteger_eq (t : Text) :
    ∃ before after : Text, t = before ++ t.trimAroundInteger ++ after ∧
      (∀ p ∈ before, p.surroundsInteger = true) ∧ ∀ p ∈ after, p.surroundsInteger = true := by
  let rest := t.dropWhile CodePoint.surroundsInteger
  refine ⟨t.takeWhile CodePoint.surroundsInteger,
    (rest.reverse.takeWhile CodePoint.surroundsInteger).reverse, ?_,
    fun p => List.mem_takeWhile_imp, fun p hp => List.mem_takeWhile_imp (List.mem_reverse.1 hp)⟩
  have hrest : t.trimAroundInteger ++
      (rest.reverse.takeWhile CodePoint.surroundsInteger).reverse = rest := by
    rw [trimAroundInteger, ← List.reverse_append, List.takeWhile_append_dropWhile,
      List.reverse_reverse]
  rw [List.append_assoc, hrest, List.takeWhile_append_dropWhile]

/-- Trimming leaves what does not belong around an integer. -/
theorem trimAroundInteger_append {before core after : Text}
    (hbefore : ∀ p ∈ before, p.surroundsInteger = true)
    (hafter : ∀ p ∈ after, p.surroundsInteger = true) (hne : core ≠ [])
    (hcore : ∀ p ∈ core, ¬ p.surroundsInteger = true) :
    trimAroundInteger (before ++ core ++ after) = core := by
  have hleft : (core ++ after).dropWhile CodePoint.surroundsInteger = core ++ after := by
    obtain ⟨p, t, rfl⟩ := List.exists_cons_of_ne_nil hne
    exact List.dropWhile_cons_of_neg (hcore p List.mem_cons_self)
  have hright : core.reverse.dropWhile CodePoint.surroundsInteger = core.reverse := by
    obtain ⟨p, t, ht⟩ := List.exists_cons_of_ne_nil (List.reverse_ne_nil_iff.2 hne)
    have hp : p ∈ core := by
      rw [← List.mem_reverse, ht]
      exact List.mem_cons_self
    rw [ht]
    exact List.dropWhile_cons_of_neg (hcore p hp)
  rw [trimAroundInteger, List.append_assoc, List.dropWhile_append_of_pos hbefore, hleft,
    List.reverse_append,
    List.dropWhile_append_of_pos fun p hp => hafter p (List.mem_reverse.1 hp), hright,
    List.reverse_reverse]

/-- Whether a text holds no information separator.  These are blank, but do not surround an
integer. -/
def Unseparated (t : Text) : Prop :=
  ∀ p ∈ t, ¬ (28 ≤ p.value ∧ p.value ≤ 31)

/-- **Trimming a text leaves a sign and digits exactly if the text spells an integer by them.** -/
theorem spells_iff {t : Text} (ht : t.Unseparated) {n : Int} :
    t.Spells n ↔ t.trimAroundInteger.SpellsSigned n := by
  constructor
  · rintro ⟨before, core, after, rfl, hbefore, hafter, hcore⟩
    have hblanks : ∀ {l : Text}, l ⊆ before ++ core ++ after → l.blank = true →
        ∀ p ∈ l, p.surroundsInteger = true := by
      intro l hl hblank p hp
      rw [CodePoint.surroundsInteger_eq (ht p (hl hp))]
      exact List.all_eq_true.1 hblank p hp
    rwa [trimAroundInteger_append (hblanks (by simp) hbefore) (hblanks (by simp) hafter)
      hcore.ne_nil]
    intro p hp
    rw [CodePoint.surroundsInteger, hcore.not_blank p hp, Bool.false_and]
    exact Bool.false_ne_true
  · intro h
    obtain ⟨before, after, heq, hbefore, hafter⟩ := t.exists_trimAroundInteger_eq
    have hblank : ∀ {l : Text}, (∀ p ∈ l, p.surroundsInteger = true) → l.blank = true := fun hl =>
      List.all_eq_true.2 fun p hp => (Bool.and_eq_true_iff.1 (hl p hp)).1
    exact ⟨before, _, after, heq, hblank hbefore, hblank hafter, h⟩

/-- **An integer is read exactly as it is spelled**, from any text with at most so many digits and
without information separators. -/
theorem integer?_eq_some_iff_spells {t : Text} (ht : t.Unseparated)
    (hlimit : t.digitCount ≤ spellingLimit) {n : Int} : t.integer? = some n ↔ t.Spells n := by
  rw [integer?_eq_some_iff, spells_iff ht]
  refine and_iff_right (Nat.le_trans ?_ hlimit)
  obtain ⟨before, after, heq, -, -⟩ := t.exists_trimAroundInteger_eq
  have hcount : t.digitCount =
      before.digitCount + t.trimAroundInteger.digitCount + after.digitCount := by
    conv_lhs => rw [heq]
    rw [digitCount, List.countP_append, List.countP_append]
    rfl
  omega

end Text

end KeyControl
