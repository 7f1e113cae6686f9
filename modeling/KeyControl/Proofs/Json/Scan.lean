import KeyControl.Json.Reader
import KeyControl.Json.Writer
import KeyControl.Message.Document
import KeyControl.Proofs.Number.Numeral
import Mathlib.Tactic.IntervalCases

/-!
# Scanning written tokens

Written tokens are read back one by one.  A mark and a string end themselves; a word or numeral ends
at the character behind it, so after one of these the reader still holds a token that it has not
given out.  `Reader.Reaches` covers both states: the reader has reached a nesting when the token it
holds, if any, leads there.

The main statement is `Reader.exists_run?_flatMap_write`: if tokens lead from one nesting to
another, their written forms lead a reader from the first to the second.  It needs that no scalar
follows a scalar directly (`separated`), which would otherwise run together, and that integers are
not too long to be read.
-/

namespace KeyControl.Json

/-- Whether a token is a scalar. -/
def Token.isScalar : Token → Bool
  | .scalar _ => true
  | _ => false

/-- Whether a token occurs in the written form of a storable value: arrays and objects are not
tokens, and integers are in range. -/
def Token.storable : Token → Bool
  | .scalar (.arr _) => false
  | .scalar (.obj _) => false
  | .scalar v => v.storable
  | _ => true

/-- Whether no scalar follows a scalar directly; `after` says whether one stands before the first
token. -/
def separated (after : Bool) : List Token → Bool
  | [] => true
  | t :: ts => ! (after && t.isScalar) && separated t.isScalar ts

namespace Reader

/-! ## Single steps -/

variable {m m' : Mode} {n n' : Nesting} {c : Char} {t : Token}

theorem step?_of_nil (h : m.step? c = some (m', [])) : step? ⟨m, n⟩ c = some ⟨m', n⟩ := by
  simp only [step?, h]
  rfl

theorem step?_of_singleton (h : m.step? c = some (m', [t])) (ht : n.step? t = some n') :
    step? ⟨m, n⟩ c = some ⟨m', n'⟩ := by
  simp only [step?, h, Nesting.run?, List.foldlM_cons, List.foldlM_nil, ht]
  rfl

theorem step?_of_pair {t' : Token} {n'' : Nesting} (h : m.step? c = some (m', [t, t']))
    (ht : n.step? t = some n') (ht' : n'.step? t' = some n'') :
    step? ⟨m, n⟩ c = some ⟨m', n''⟩ := by
  simp only [step?, h, Nesting.run?, List.foldlM_cons, List.foldlM_nil, ht, Option.bind_eq_bind,
    Option.bind_some, ht']
  rfl

/-! ## Strings -/

private theorem exists_eq_ofNat_of_lt_space (h : c < ' ') : ∃ k < 32, c = Char.ofNat k :=
  ⟨c.toNat, h, (Char.ofNat_toNat c).symm⟩

/-- **An escaped character is read back.** -/
theorem run?_escape (done : List Char) (c : Char) (n : Nesting) :
    run? ⟨.quoted done, n⟩ (escape c) = some ⟨.quoted (c :: done), n⟩ := by
  by_cases hquote : c = '\x22'
  · subst hquote
    rfl
  by_cases hslash : c = '\\'
  · subst hslash
    rfl
  by_cases hcontrol : c < ' '
  · obtain ⟨k, hk, rfl⟩ := exists_eq_ofNat_of_lt_space hcontrol
    interval_cases k <;> rfl
  · have hescape : escape c = [c] := by simp [escape, hquote, hslash, hcontrol]
    have hstep : (Mode.quoted done).step? c = some (.quoted (c :: done), []) := by
      simp [Mode.step?, hquote, hslash, hcontrol]
    rw [hescape, run?_cons, step?_of_nil hstep]
    rfl

theorem run?_flatMap_escape (cs done : List Char) (n : Nesting) :
    run? ⟨.quoted done, n⟩ (cs.flatMap escape) = some ⟨.quoted (cs.reverse ++ done), n⟩ := by
  induction cs generalizing done with
  | nil => rfl
  | cons c cs ih =>
    rw [List.flatMap_cons, run?_append, run?_escape, Option.bind_some, ih]
    simp

/-- **A quoted string is the token of that string.** -/
theorem run?_quote (s : String) (h : n.step? (.scalar (.str s)) = some n') :
    run? ⟨.between, n⟩ (quote s) = some ⟨.between, n'⟩ := by
  have hopen : Mode.between.step? '\x22' = some (.quoted [], []) := rfl
  have hclose : (Mode.quoted s.toList.reverse).step? '\x22' =
      some (.between, [.scalar (.str s)]) := by
    simp [Mode.step?, String.ofList_toList]
  rw [quote, run?_cons, step?_of_nil hopen, Option.bind_some, run?_append, run?_flatMap_escape,
    Option.bind_some, List.append_nil, run?_cons, step?_of_singleton hclose h]
  rfl

/-! ## Words and numerals -/

/-- Whether a character goes on with a word or numeral. -/
def continues (c : Char) : Bool :=
  ! blank c && (mark? c).isNone

theorem run?_word {letters cs : List Char} (h : ∀ c ∈ cs, continues c = true) :
    run? ⟨.word letters, n⟩ cs = some ⟨.word (cs.reverse ++ letters), n⟩ := by
  induction cs generalizing letters with
  | nil => rfl
  | cons c cs ih =>
    obtain ⟨hc, hcs⟩ := List.forall_mem_cons.1 h
    simp only [continues, Bool.and_eq_true, Bool.not_eq_true', Option.isNone_iff_eq_none] at hc
    have hstep : (Mode.word letters).step? c = some (.word (c :: letters), []) := by
      simp [Mode.step?, hc.1, hc.2]
    rw [run?_cons, step?_of_nil hstep, Option.bind_some, ih hcs]
    simp

theorem run?_between {cs : List Char} (hne : cs ≠ []) (h : ∀ c ∈ cs, continues c = true)
    (hquote : '\x22' ∉ cs) : run? ⟨.between, n⟩ cs = some ⟨.word cs.reverse, n⟩ := by
  obtain ⟨c, cs, rfl⟩ := List.exists_cons_of_ne_nil hne
  obtain ⟨hc, hcs⟩ := List.forall_mem_cons.1 h
  simp only [continues, Bool.and_eq_true, Bool.not_eq_true', Option.isNone_iff_eq_none] at hc
  have hc' : c ≠ '\x22' := fun he => hquote (he ▸ List.mem_cons_self ..)
  have hstep : Mode.between.step? c = some (.word [c], []) := by
    simp [Mode.step?, hc.1, hc.2, hc']
  rw [run?_cons, step?_of_nil hstep, Option.bind_some, run?_word hcs]
  simp

/-- The characters of numbers go on with a word, and none of them is a quote. -/
theorem continues_of_numeralChar {c : Char} (h : numeralChar c = true) :
    continues c = true ∧ c ≠ '\x22' := by
  have hne : ∀ d, numeralChar d = false → c ≠ d := by
    rintro d hd rfl
    exact absurd (h.symm.trans hd) (by decide)
  have hblank : blank c = false := by
    simp [blank, hne ' ' rfl, hne '\t' rfl, hne '\n' rfl, hne '\r' rfl]
  have hmark : mark? c = none := by
    unfold mark?
    split
    · exact absurd rfl (hne _ rfl)
    · exact absurd rfl (hne _ rfl)
    · exact absurd rfl (hne _ rfl)
    · exact absurd rfl (hne _ rfl)
    · exact absurd rfl (hne _ rfl)
    · exact absurd rfl (hne _ rfl)
    · rfl
  exact ⟨by simp [continues, hblank, hmark], hne _ rfl⟩

/-- A word that is written for a scalar. -/
structure IsWord (v : Json) (cs : List Char) : Prop where
  ne_nil : cs ≠ []
  continues : ∀ c ∈ cs, continues c = true
  quote_notMem : '\x22' ∉ cs
  ofWord? : ofWord? cs = some v

/-- A numeral that is read as a value is a word of that value. -/
theorem isWord_of_numeral {v : Json} {cs : List Char} (hcs : ∀ c ∈ cs, numeralChar c = true)
    (h : ofWord? cs = some v) : IsWord v cs where
  ne_nil := by
    rintro rfl
    cases h
  continues := fun c hc => (continues_of_numeralChar (hcs c hc)).1
  quote_notMem := fun hq => (continues_of_numeralChar (hcs _ hq)).2 rfl
  ofWord? := h

private theorem ne_cons_of_numeralChar {cs : List Char} (hcs : ∀ c ∈ cs, numeralChar c = true)
    {d : Char} (hd : numeralChar d = false) (ds : List Char) : cs ≠ d :: ds := by
  rintro rfl
  exact absurd ((hcs d (List.mem_cons_self ..)).symm.trans hd) (by decide)

theorem ofWord?_of_integer {cs : List Char} (hcs : ∀ c ∈ cs, numeralChar c = true) {k : ℤ}
    (h : Numeral.ofChars? cs = some (.integer k)) : ofWord? cs = some (.int k) := by
  unfold Json.ofWord?
  rw [if_neg (ne_cons_of_numeralChar hcs rfl _), if_neg (ne_cons_of_numeralChar hcs rfl _),
    if_neg (ne_cons_of_numeralChar hcs rfl _), h]

theorem ofWord?_of_decimal {cs : List Char} (hcs : ∀ c ∈ cs, numeralChar c = true) {d : Decimal}
    {x : FiniteDouble} (h : Numeral.ofChars? cs = some (.decimal d))
    (hx : d.toDouble? = some x) : ofWord? cs = some (.num x) := by
  unfold Json.ofWord?
  rw [if_neg (ne_cons_of_numeralChar hcs rfl _), if_neg (ne_cons_of_numeralChar hcs rfl _),
    if_neg (ne_cons_of_numeralChar hcs rfl _), h]
  dsimp only
  rw [hx, Option.map_some]

theorem length_digits_lt_of_fits {k : ℤ} (h : fits k = true) :
    (Layout.digits k.natAbs).length < Numeral.integerLimit := by
  have hlt : k.natAbs < 10 ^ 20 := by
    simp only [fits, Bool.and_eq_true, decide_eq_true_eq] at h
    omega
  have hle := (Layout.length_digits_le_iff (by norm_num)).2 hlt
  exact lt_of_le_of_lt hle (by decide)

/-- **A scalar other than a string is written as a word.** -/
theorem isWord_writeScalar {v : Json} (hv : (Token.scalar v).storable = true)
    (hstr : ∀ s, v ≠ .str s) : IsWord v (writeScalar v) := by
  cases v with
  | null => exact ⟨by decide, List.all_eq_true.1 rfl, by decide, rfl⟩
  | bool b => cases b <;> exact ⟨by decide, List.all_eq_true.1 rfl, by decide, rfl⟩
  | int k =>
    have hcs := Layout.numeralChar_of_mem_integerText k
    exact isWord_of_numeral hcs
      (ofWord?_of_integer hcs (Numeral.ofChars?_integerText (length_digits_lt_of_fits hv)))
  | num x =>
    have hcs := Layout.numeralChar_of_mem_write layout x.shortest
    obtain ⟨d, hd, hx⟩ := x.exists_toDouble?_write layout
    exact isWord_of_numeral hcs (ofWord?_of_decimal hcs hd hx)
  | str s => exact absurd rfl (hstr s)
  | arr vs => cases hv
  | obj es => cases hv

/-! ## Tokens -/

/-- A reader has reached a nesting: it is between tokens there, or in a word whose token leads
there. -/
inductive Reaches : Reader → Nesting → Prop where
  | between (n : Nesting) : Reaches ⟨.between, n⟩ n
  | word {letters : List Char} {n n' : Nesting} {v : Json}
      (hv : Json.ofWord? letters.reverse = some v) (hn : n.step? (.scalar v) = some n') :
      Reaches ⟨.word letters, n⟩ n'

variable {r : Reader}

/-- A mark leads on from the nesting reached, and ends the word before it. -/
theorem Reaches.step?_mark (hr : r.Reaches n) (hc : mark? c = some t) (ht : n.step? t = some n') :
    r.step? c = some ⟨.between, n'⟩ := by
  have hblank : blank c = false := by
    unfold mark? at hc
    split at hc
    · rfl
    · rfl
    · rfl
    · rfl
    · rfl
    · rfl
    · cases hc
  have hquote : c ≠ '\x22' := by
    rintro rfl
    cases hc
  cases hr with
  | between =>
    have hstep : Mode.between.step? c = some (.between, [t]) := by
      simp [Mode.step?, hblank, hquote, hc]
    exact step?_of_singleton hstep ht
  | word hv hn =>
    rename_i letters n₀ v
    have hstep : (Mode.word letters).step? c = some (.between, [.scalar v, t]) := by
      simp [Mode.step?, hblank, hc, hv]
    exact step?_of_pair hstep hn ht

theorem Reaches.step?_blank (hr : r.Reaches n) (hc : blank c = true) :
    r.step? c = some ⟨.between, n⟩ := by
  cases hr with
  | between =>
    have hstep : Mode.between.step? c = some (.between, []) := by simp [Mode.step?, hc]
    exact step?_of_nil hstep
  | word hv hn =>
    rename_i letters n₀ v
    have hstep : (Mode.word letters).step? c = some (.between, [.scalar v]) := by
      simp [Mode.step?, hc, hv]
    exact step?_of_singleton hstep hn

theorem Reaches.exists_run?_blanks {ws : List Char} (hr : r.Reaches n)
    (hws : ∀ c ∈ ws, blank c = true) : ∃ r', r.run? ws = some r' ∧ r'.Reaches n := by
  induction ws generalizing r with
  | nil => exact ⟨r, rfl, hr⟩
  | cons c ws ih =>
    obtain ⟨hc, hws⟩ := List.forall_mem_cons.1 hws
    obtain ⟨r', hr', hn⟩ := ih (.between n) hws
    refine ⟨r', ?_, hn⟩
    rw [run?_cons, hr.step?_blank hc, Option.bind_some, hr']

/-- A reader that has reached a complete value may end there. -/
theorem Reaches.close?_complete {v : Json} {frames : List Frame}
    (hr : r.Reaches ⟨.complete v, frames⟩) : r.close? = some v := by
  cases hr with
  | between => rfl
  | word hv hn =>
    simp only [close?, Mode.close?, hv, Option.map_some, Nesting.run?, List.foldlM_cons,
      List.foldlM_nil, hn]
    rfl

theorem exists_write_eq_singleton (ht : t.isScalar = false) :
    ∃ c, t.write = [c] ∧ mark? c = some t := by
  cases t with
  | scalar v => cases ht
  | openArray => exact ⟨'[', rfl, rfl⟩
  | closeArray => exact ⟨']', rfl, rfl⟩
  | openObject => exact ⟨'\x7b', rfl, rfl⟩
  | closeObject => exact ⟨'\x7d', rfl, rfl⟩
  | comma => exact ⟨',', rfl, rfl⟩
  | colon => exact ⟨':', rfl, rfl⟩

/-- **A written scalar leads where its token leads**, from between tokens. -/
theorem exists_run?_writeScalar {v : Json} (hv : (Token.scalar v).storable = true)
    (hn : n.step? (.scalar v) = some n') :
    ∃ r', run? ⟨.between, n⟩ (writeScalar v) = some r' ∧ r'.Reaches n' := by
  by_cases hstr : ∃ s, v = .str s
  · obtain ⟨s, rfl⟩ := hstr
    exact ⟨_, run?_quote s hn, .between n'⟩
  · have hword := isWord_writeScalar hv fun s hs => hstr ⟨s, hs⟩
    refine ⟨_, run?_between hword.ne_nil hword.continues hword.quote_notMem, .word ?_ hn⟩
    rw [List.reverse_reverse]
    exact hword.ofWord?

/-- **A written token leads where the token leads.**  Before a scalar the reader has to be between
tokens. -/
theorem Reaches.exists_run?_write (hr : r.Reaches n)
    (hmode : t.isScalar = true → r.mode = .between) (ht : t.storable = true)
    (hn : n.step? t = some n') :
    ∃ r', r.run? t.write = some r' ∧ r'.Reaches n' ∧ (t.isScalar = false → r'.mode = .between) := by
  by_cases hscalar : t.isScalar = true
  · cases t with
    | scalar v =>
      cases hr with
      | between =>
        obtain ⟨r', hr', hreach⟩ := exists_run?_writeScalar ht hn
        exact ⟨r', hr', hreach, fun h => absurd (hscalar.symm.trans h) (by decide)⟩
      | word hv hn => cases hmode hscalar
    | _ => cases hscalar
  · rw [Bool.not_eq_true] at hscalar
    obtain ⟨c, hc, hmark⟩ := exists_write_eq_singleton hscalar
    refine ⟨_, ?_, .between n', fun _ => rfl⟩
    rw [hc, run?_cons, hr.step?_mark hmark hn]
    rfl

/-- **Written tokens lead where the tokens lead**, if no scalar follows a scalar directly. -/
theorem Reaches.exists_run?_flatMap_write {ts : List Token} {after : Bool} (hr : r.Reaches n)
    (hmode : after = false → r.mode = .between) (hsep : separated after ts = true)
    (hts : ∀ t ∈ ts, t.storable = true) (hn : n.run? ts = some n') :
    ∃ r', r.run? (ts.flatMap Token.write) = some r' ∧ r'.Reaches n' := by
  induction ts generalizing r n after with
  | nil =>
    cases hn
    exact ⟨r, rfl, hr⟩
  | cons t ts ih =>
    simp only [separated, Bool.and_eq_true, Bool.not_eq_true', Bool.and_eq_false_iff] at hsep
    obtain ⟨ht, hts⟩ := List.forall_mem_cons.1 hts
    obtain ⟨n₁, hn₁, hn⟩ := Option.bind_eq_some_iff.1 hn
    have hbefore : t.isScalar = true → r.mode = .between := by
      intro hscalar
      rcases hsep.1 with h | h
      · exact hmode h
      · exact absurd (hscalar.symm.trans h) (by decide)
    obtain ⟨r₁, hr₁, hreach, hafter⟩ := hr.exists_run?_write hbefore ht hn₁
    obtain ⟨r', hr', hreach'⟩ := ih hreach hafter hsep.2 hts hn
    refine ⟨r', ?_, hreach'⟩
    rw [List.flatMap_cons, run?_append, hr₁, Option.bind_some, hr']

end Reader

end KeyControl.Json
