import KeyControl.Proofs.Json.Scan

/-!
# Written values hold no control character

The characters of a written value are those of its tokens.  A mark is written as itself, a word or
numeral in letters, digits and signs, and a string in quotes with every character below U+0020
escaped; so no character below U+0020 is ever written (`space_le_of_mem_write`), and the first one
is no blank either (`exists_write_eq_cons`).  Nothing is asked of the value here: its integers may be
of any size, and its objects may have a key twice.

In UTF-8, the octets of a character are no less than the character itself, as long as that is below
U+0080.  Hence the octets of a written value are at least 0x20 (`le_of_mem_encode`): it holds no
line feed, and with its first character in view, it is not blank.  That is what a stream with one
value to a line rests on.
-/

namespace KeyControl

theorem blankOctet_of_lt {b : UInt8} (h : 0x20 < b.toNat) : blankOctet b = false := by
  have hle : ¬ b ≤ 13 := fun hb => by
    have hb' : b.toNat ≤ 13 := UInt8.le_iff_toNat_le.1 hb
    omega
  have hne : b ≠ 32 := by
    rintro rfl
    exact absurd h (by decide)
  simp [blankOctet, hle, hne]

/-! ## UTF-8 -/

namespace Utf8

/-- The octets of a character are no less than the character, up to U+0080. -/
theorem le_toNat_of_mem_utf8EncodeChar {k : ℕ} (hk : k ≤ 0x80) {c : Char} (hc : k ≤ c.toNat) :
    ∀ b ∈ String.utf8EncodeChar c, k ≤ b.toNat := by
  have hlt : c.toNat < 0x110000 := by
    rcases c.valid with h | h
    · exact Nat.lt_trans h (by decide)
    · exact h.2
  have hoctet : ∀ n, k ≤ n → n < 256 → k ≤ (UInt8.ofNat n).toNat := by
    intro n hn hn'
    rw [UInt8.toNat_ofNat']
    omega
  have hval : c.val.toNat = c.toNat := rfl
  unfold String.utf8EncodeChar
  simp only [hval]
  split_ifs with h₁ h₂ h₃
  · exact List.forall_mem_singleton.2 (hoctet _ hc (by omega))
  · exact List.forall_mem_cons.2 ⟨hoctet _ (by omega) (by omega),
      List.forall_mem_singleton.2 (hoctet _ (by omega) (by omega))⟩
  · exact List.forall_mem_cons.2 ⟨hoctet _ (by omega) (by omega),
      List.forall_mem_cons.2 ⟨hoctet _ (by omega) (by omega),
        List.forall_mem_singleton.2 (hoctet _ (by omega) (by omega))⟩⟩
  · exact List.forall_mem_cons.2 ⟨hoctet _ (by omega) (by omega),
      List.forall_mem_cons.2 ⟨hoctet _ (by omega) (by omega),
        List.forall_mem_cons.2 ⟨hoctet _ (by omega) (by omega),
          List.forall_mem_singleton.2 (hoctet _ (by omega) (by omega))⟩⟩⟩

theorem le_of_mem_encode {cs : List Char} (h : ∀ c ∈ cs, 0x20 ≤ c.toNat) :
    ∀ b ∈ encode cs, 0x20 ≤ b := by
  intro b hb
  obtain ⟨c, hc, hbc⟩ := List.mem_flatMap.1 hb
  exact le_toNat_of_mem_utf8EncodeChar (by decide) (h c hc) b hbc

theorem blank_encode_cons {c : Char} (hc : 0x20 < c.toNat) (cs : List Char) :
    Bytes.blank (encode (c :: cs)) = false := by
  cases hoctets : String.utf8EncodeChar c with
  | nil => exact absurd hoctets String.utf8EncodeChar_ne_nil
  | cons b bs =>
    have hb := le_toNat_of_mem_utf8EncodeChar (by decide) hc b (hoctets ▸ List.mem_cons_self ..)
    rw [encode_cons, hoctets, List.cons_append, Bytes.blank_cons, blankOctet_of_lt hb,
      Bool.false_and]

end Utf8

namespace Json

/-! ## Characters -/

theorem space_lt_of_numeralChar {c : Char} (h : numeralChar c = true) : 0x20 < c.toNat := by
  simp only [numeralChar, Bool.or_eq_true, beq_iff_eq] at h
  rcases h with (((h | rfl) | rfl) | rfl) | rfl
  · simp only [Char.isDigit, Bool.and_eq_true, decide_eq_true_eq] at h
    exact Nat.lt_of_lt_of_le (by decide : 32 < 48) h.1
  · decide
  · decide
  · decide
  · decide

private theorem space_le_of_all {cs : List Char}
    (h : (cs.all fun c => decide (0x20 ≤ c.toNat)) = true) : ∀ c ∈ cs, 0x20 ≤ c.toNat :=
  fun c hc => of_decide_eq_true (List.all_eq_true.1 h c hc)

private theorem space_le_hexDigit {n : ℕ} (h : n < 16) : 0x20 ≤ (hexDigit n).toNat := by
  have hall : ∀ k < 16, 0x20 ≤ (hexDigit k).toNat := by decide
  exact hall n h

/-- **An escaped character is written without control characters.** -/
theorem space_le_of_mem_escape (c : Char) : ∀ d ∈ escape c, 0x20 ≤ d.toNat := by
  unfold escape
  split_ifs with hquote hslash hcontrol
  · exact space_le_of_all rfl
  · exact space_le_of_all rfl
  · have hlt : c.toNat < 32 := hcontrol
    split
    · exact space_le_of_all rfl
    · exact space_le_of_all rfl
    · exact space_le_of_all rfl
    · exact space_le_of_all rfl
    · exact space_le_of_all rfl
    · have hhigh : 0x20 ≤ (hexDigit (c.toNat / 16)).toNat := space_le_hexDigit (by omega)
      have hlow : 0x20 ≤ (hexDigit (c.toNat % 16)).toNat := space_le_hexDigit (by omega)
      have hopen : ∀ d ∈ ['\\', 'u', '0', '0'], 0x20 ≤ d.toNat := space_le_of_all rfl
      exact List.forall_mem_append.2 ⟨hopen, List.forall_mem_cons.2
        ⟨hhigh, List.forall_mem_singleton.2 hlow⟩⟩
  · exact List.forall_mem_singleton.2 (Nat.le_of_not_lt hcontrol)

theorem space_le_of_mem_quote (s : String) : ∀ c ∈ quote s, 0x20 ≤ c.toNat := by
  have hbody : ∀ c ∈ s.toList.flatMap escape, 0x20 ≤ c.toNat := by
    intro c hc
    obtain ⟨d, -, hcd⟩ := List.mem_flatMap.1 hc
    exact space_le_of_mem_escape d c hcd
  exact List.forall_mem_cons.2 ⟨by decide,
    List.forall_mem_append.2 ⟨hbody, List.forall_mem_singleton.2 (by decide)⟩⟩

private theorem space_le_of_numeralChar {cs : List Char} (h : ∀ c ∈ cs, numeralChar c = true) :
    ∀ c ∈ cs, 0x20 ≤ c.toNat :=
  fun c hc => Nat.le_of_lt (space_lt_of_numeralChar (h c hc))

/-- A token is written without control characters. -/
theorem space_le_of_mem_writeToken (t : Token) : ∀ c ∈ t.write, 0x20 ≤ c.toNat := by
  cases t with
  | scalar v =>
    cases v with
    | null => exact space_le_of_all rfl
    | bool b => cases b <;> exact space_le_of_all rfl
    | int n => exact space_le_of_numeralChar (Layout.numeralChar_of_mem_integerText n)
    | num x => exact space_le_of_numeralChar (Layout.numeralChar_of_mem_write layout x.shortest)
    | str s => exact space_le_of_mem_quote s
    | arr items => exact fun _ hc => absurd hc List.not_mem_nil
    | obj entries => exact fun _ hc => absurd hc List.not_mem_nil
  | _ => exact List.forall_mem_singleton.2 (by decide)

/-- **A written value holds no control character.** -/
theorem space_le_of_mem_write (v : Json) : ∀ c ∈ write v, 0x20 ≤ c.toNat := by
  intro c hc
  obtain ⟨t, -, hct⟩ := List.mem_flatMap.1 hc
  exact space_le_of_mem_writeToken t c hct

private theorem exists_eq_cons_of_numeralChar {cs : List Char} (hne : cs ≠ [])
    (hcs : ∀ c ∈ cs, numeralChar c = true) : ∃ c rest, cs = c :: rest ∧ 0x20 < c.toNat := by
  obtain ⟨c, rest, rfl⟩ := List.exists_cons_of_ne_nil hne
  exact ⟨c, rest, rfl, space_lt_of_numeralChar (hcs c (List.mem_cons_self ..))⟩

/-- **A written value begins with a character after the space.** -/
theorem exists_write_eq_cons (v : Json) : ∃ c cs, write v = c :: cs ∧ 0x20 < c.toNat := by
  cases v with
  | null => exact ⟨'n', _, rfl, by decide⟩
  | bool b =>
    cases b with
    | false => exact ⟨'f', _, rfl, by decide⟩
    | true => exact ⟨'t', _, rfl, by decide⟩
  | int n =>
    have hwrite : write (.int n) = integerText n := List.append_nil _
    have hne : integerText n ≠ [] := by
      cases n with
      | ofNat k => exact Layout.digits_ne_nil k
      | negSucc k => exact List.cons_ne_nil _ _
    rw [hwrite]
    exact exists_eq_cons_of_numeralChar hne (Layout.numeralChar_of_mem_integerText n)
  | num x =>
    have hwrite : write (.num x) = layout.write x.shortest := List.append_nil _
    have hword := @Reader.isWord_writeScalar (.num x) rfl nofun
    rw [hwrite]
    exact exists_eq_cons_of_numeralChar hword.ne_nil (Layout.numeralChar_of_mem_write _ _)
  | str s => exact ⟨'\x22', _, rfl, by decide⟩
  | arr items =>
    cases items with
    | nil => exact ⟨'[', _, rfl, by decide⟩
    | cons w ws => exact ⟨'[', _, rfl, by decide⟩
  | obj entries =>
    cases entries with
    | nil => exact ⟨'\x7b', _, rfl, by decide⟩
    | cons e es => exact ⟨'\x7b', _, rfl, by decide⟩

/-! ## Octets -/

/-- **The octets of a written value are at least 0x20.** -/
theorem le_of_mem_encode (v : Json) : ∀ b ∈ encode v, 0x20 ≤ b :=
  Utf8.le_of_mem_encode (space_le_of_mem_write v)

theorem blank_encode (v : Json) : (encode v).blank = false := by
  obtain ⟨c, cs, hwrite, hc⟩ := exists_write_eq_cons v
  rw [encode, hwrite]
  exact Utf8.blank_encode_cons hc cs

end Json

end KeyControl
