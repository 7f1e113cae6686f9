import KeyControl.Json.Reader
import KeyControl.Proofs.Json.Scan
import KeyControl.Text.CharacterClass

/-!
# Blanks around a JSON text

Blanks before and behind a text make no difference to what is read, whether the text has a value or
not (`ofChars?_blanks_append`).  In front this is so because the reader waits between tokens.
Behind, a blank ends a word or numeral as the end of the text does, and within a string neither may
stand; so a reader at any point comes to the same value with and without it
(`Reader.bind_close?_of_blank`).

Other characters count as blank elsewhere: Unicode has white space that JSON does not know.  A text
that holds nothing else has no value either (`ofChars?_eq_none_of_blankCode`), because such a
character begins a word, and no word begins with one (`ofWord?_eq_none`).
-/

namespace KeyControl.Json

theorem eq_of_blank {c : Char} (hc : blank c = true) :
    c = ' ' ∨ c = '\t' ∨ c = '\n' ∨ c = '\r' := by
  simp only [blank, Bool.or_eq_true, beq_iff_eq] at hc
  rwa [or_assoc, or_assoc] at hc

namespace Reader

/-! ## Blanks before and behind -/

theorem run?_of_blanks {ws : List Char} (hws : ∀ c ∈ ws, blank c = true) (n : Nesting) :
    run? ⟨.between, n⟩ ws = some ⟨.between, n⟩ := by
  induction ws with
  | nil => rfl
  | cons c ws ih =>
    obtain ⟨hc, hws⟩ := List.forall_mem_cons.1 hws
    rw [run?_cons, (Reaches.between n).step?_blank hc, Option.bind_some, ih hws]

/-- **A blank at the end makes no difference**, wherever the reader stands. -/
theorem bind_close?_of_blank (r : Reader) {c : Char} (hc : blank c = true) :
    (r.step? c).bind close? = r.close? := by
  obtain ⟨mode, n⟩ := r
  cases mode with
  | between => rw [(Reaches.between n).step?_blank hc, Option.bind_some]
  | word letters =>
    -- The blank completes the word, as the end would.
    have hmode : (Mode.word letters).step? c =
        (ofWord? letters.reverse).map fun v => (.between, [.scalar v]) := by
      rw [Mode.step?, if_pos hc]
    rw [step?, close?, hmode, Mode.close?]
    cases ofWord? letters.reverse with
    | none => rfl
    | some v =>
      dsimp only [Option.map_some]
      cases n.run? [.scalar v] with
      | none => rfl
      | some n' => rfl
  | _ => rcases eq_of_blank hc with rfl | rfl | rfl | rfl <;> rfl

theorem bind_close?_of_blanks (r : Reader) {ws : List Char} (hws : ∀ c ∈ ws, blank c = true) :
    (r.run? ws).bind close? = r.close? := by
  induction ws generalizing r with
  | nil => rfl
  | cons c ws ih =>
    obtain ⟨hc, hws⟩ := List.forall_mem_cons.1 hws
    rw [run?_cons, Option.bind_assoc, ← r.bind_close?_of_blank hc]
    exact congrArg _ (funext fun r' => ih r' hws)

end Reader

/-- **Blanks around a text make no difference**, whatever the text is. -/
theorem ofChars?_blanks_append {ws ws' : List Char} (hws : ∀ c ∈ ws, blank c = true)
    (hws' : ∀ c ∈ ws', blank c = true) (cs : List Char) :
    ofChars? (ws ++ cs ++ ws') = ofChars? cs := by
  rw [List.append_assoc, ofChars?, Reader.run?_append, Reader.start, Reader.run?_of_blanks hws,
    Option.bind_some, Reader.run?_append, Option.bind_assoc, ofChars?, Reader.start]
  exact congrArg _ (funext fun r => r.bind_close?_of_blanks hws')

/-! ## Texts of nothing but white space -/

/-- **No word begins with white space**, and no numeral. -/
theorem ofWord?_eq_none {c : Char} (hc : blankCode c.toNat = true) (cs : List Char) :
    ofWord? (c :: cs) = none := by
  have hne : ∀ d : Char, blankCode d.toNat = false → c ≠ d := by
    rintro d hd rfl
    rw [hc] at hd
    cases hd
  have hword : ∀ d ds, blankCode d.toNat = false → c :: cs ≠ d :: ds := fun d ds hd heq =>
    hne d hd (List.cons.inj heq).1
  have hdigit : ¬ c.isDigit = true := by
    intro h
    simp only [Char.isDigit, Bool.and_eq_true, decide_eq_true_eq] at h
    have hlow : 48 ≤ c.toNat := UInt32.le_iff_toNat_le.1 h.1
    have hhigh : c.toNat ≤ 57 := UInt32.le_iff_toNat_le.1 h.2
    simp only [blankCode, Bool.or_eq_true, Bool.and_eq_true, beq_iff_eq, decide_eq_true_eq] at hc
    omega
  have hnumeral : Numeral.ofChars? (c :: cs) = none := by
    have hunsigned : Numeral.ofChars? (c :: cs) = Numeral.unsigned? false (c :: cs) := by
      unfold Numeral.ofChars?
      split
      · next heq => exact absurd heq (hword '-' _ rfl)
      · rfl
    rw [hunsigned, Numeral.unsigned?, Numeral.splitDigits, List.takeWhile_cons_of_neg hdigit]
    rfl
  rw [ofWord?, if_neg (hword 'n' _ rfl), if_neg (hword 't' _ rfl), if_neg (hword 'f' _ rfl),
    hnumeral]

namespace Reader

/-- A reader is idle while it has seen nothing but white space: it waits for a value, or collects a
word that begins with white space. -/
inductive Idle : Reader → Prop where
  | between : Idle start
  | word {letters : List Char} {c : Char} {cs : List Char} (hc : blankCode c.toNat = true)
      (hletters : letters.reverse = c :: cs) : Idle ⟨.word letters, ⟨.value, []⟩⟩

/-- White space leaves an idle reader idle, if it may stand there. -/
theorem Idle.step? {r r' : Reader} {c : Char} (h : r.Idle) (hc : blankCode c.toNat = true)
    (hstep : r.step? c = some r') : r'.Idle := by
  have hquote : c ≠ '\x22' := by
    rintro rfl
    cases hc
  have hmark : mark? c = none := by
    unfold mark?
    split
    · cases hc
    · cases hc
    · cases hc
    · cases hc
    · cases hc
    · cases hc
    · rfl
  cases h with
  | between =>
    by_cases hblank : blank c = true
    · rw [start, (Reaches.between _).step?_blank hblank] at hstep
      cases hstep
      exact .between
    · have hmode : Mode.between.step? c = some (.word [c], []) := by
        rw [Mode.step?, if_neg hblank, if_neg hquote, hmark]
      rw [start, step?_of_nil hmode] at hstep
      cases hstep
      exact .word hc rfl
  | @word letters d ds hd hletters =>
    by_cases hblank : blank c = true
    · have hmode : (Mode.word letters).step? c = none := by
        rw [Mode.step?, if_pos hblank, hletters, ofWord?_eq_none hd, Option.map_none]
      rw [Reader.step?, hmode] at hstep
      cases hstep
    · have hmode : (Mode.word letters).step? c = some (.word (c :: letters), []) := by
        rw [Mode.step?, if_neg hblank, hmark]
      rw [step?_of_nil hmode] at hstep
      cases hstep
      have hletters' : (c :: letters).reverse = d :: (ds ++ [c]) := by
        rw [List.reverse_cons, hletters, List.cons_append]
      exact .word hd hletters'

theorem Idle.close?_eq_none {r : Reader} (h : r.Idle) : r.close? = none := by
  cases h with
  | between => rfl
  | word hc hletters =>
    rw [close?, Mode.close?, hletters, ofWord?_eq_none hc]
    rfl

theorem Idle.bind_close?_eq_none {r : Reader} {cs : List Char} (h : r.Idle)
    (hcs : ∀ c ∈ cs, blankCode c.toNat = true) : (r.run? cs).bind close? = none := by
  induction cs generalizing r with
  | nil => exact h.close?_eq_none
  | cons c cs ih =>
    obtain ⟨hc, hcs⟩ := List.forall_mem_cons.1 hcs
    rw [run?_cons]
    cases hstep : r.step? c with
    | none => rfl
    | some r' => exact ih (h.step? hc hstep) hcs

end Reader

/-- **A text of nothing but white space has no value.** -/
theorem ofChars?_eq_none_of_blankCode {cs : List Char}
    (hcs : ∀ c ∈ cs, blankCode c.toNat = true) : ofChars? cs = none :=
  Reader.Idle.between.bind_close?_eq_none hcs

end KeyControl.Json
