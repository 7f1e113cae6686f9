import KeyControl.Text.Utf8
import Mathlib.Data.List.Basic
import Mathlib.Tactic.SplitIfs

/-!
# UTF-8 is read by no octets but its own

`Utf8.decode?_encode` says that what is encoded is decoded.  Here is the converse: octets are
decoded to characters only if they are the octets of these characters (`Utf8.decode?_eq_some_iff`).
The argument goes along the machine.  A leading octet announces a number of continuation octets, and
`Utf8.exists_of_unfinished` collects them up to the character that they complete; the value of that
character and the length announced leave no other choice of octets.

Since the machine does not look ahead, octets may be decoded part by part
(`Utf8.decode?_encode_append`), and the octets of a text begin with no other text's octets than
those of its own beginnings.
-/

namespace KeyControl.Utf8

/-! ## What completes a character -/

/-- The continuation octets. -/
def Follows (b : UInt8) : Prop :=
  0x80 ≤ b.toNat ∧ b.toNat < 0xC0

/-- The value of a character after further continuation octets. -/
def valueAfter (value : ℕ) (bs : Bytes) : ℕ :=
  bs.foldl (fun n b => n * 64 + (b.toNat - 0x80)) value

theorem valueAfter_cons (value : ℕ) (b : UInt8) (bs : Bytes) :
    valueAfter value (b :: bs) = valueAfter (value * 64 + (b.toNat - 0x80)) bs := by
  rw [valueAfter, List.foldl_cons, valueAfter]

/-- A value that is complete is that of a character, and no less than the length announces. -/
theorem exists_of_complete? {done : List Char} {value least : ℕ} {s : State}
    (h : State.complete? done value least = some s) :
    ∃ c : Char, c.toNat = value ∧ least ≤ value ∧ s = ⟨c :: done, none⟩ := by
  rw [State.complete?] at h
  by_cases hvalid : value.isValidChar
  · rw [dif_pos hvalid] at h
    by_cases hleast : least ≤ value
    · rw [if_pos hleast] at h
      cases h
      exact ⟨Char.ofNatAux value hvalid, rfl, hleast, rfl⟩
    · rw [if_neg hleast] at h
      cases h
  · rw [dif_neg hvalid] at h
    cases h

/-- A continuation octet is taken exactly in a character that is not complete, and either completes
it or leaves one octet less to come. -/
theorem follow?_eq_some {done : List Char} {u : Unfinished} {b : UInt8} {s : State}
    (h : State.follow? done u b.toNat = some s) :
    Follows b ∧
      (u.owed = 0 ∧ State.complete? done (u.value * 64 + (b.toNat - 0x80)) u.least = some s ∨
        ∃ owed, u.owed = owed + 1 ∧
          s = ⟨done, some ⟨owed, u.value * 64 + (b.toNat - 0x80), u.least⟩⟩) := by
  unfold State.follow? at h
  split_ifs at h with hrange
  refine ⟨by unfold Follows; omega, ?_⟩
  dsimp only at h
  split at h
  · next howed => exact .inl ⟨howed, h⟩
  · next owed howed =>
    cases h
    exact .inr ⟨owed, howed, rfl⟩

/-- **Octets that lead out of a character begin with the continuation octets owed**, and these
complete a character. -/
theorem exists_of_unfinished {done done' : List Char} {u : Unfinished} {bs : Bytes}
    (h : bs.foldlM State.step? ⟨done, some u⟩ = some ⟨done', none⟩) :
    ∃ tail rest c, bs = tail ++ rest ∧ tail.length = u.owed + 1 ∧ (∀ b ∈ tail, Follows b) ∧
      c.toNat = valueAfter u.value tail ∧ u.least ≤ c.toNat ∧
      rest.foldlM State.step? ⟨c :: done, none⟩ = some ⟨done', none⟩ := by
  induction bs generalizing u with
  | nil => cases h
  | cons b bs ih =>
    obtain ⟨s, hs, hrest⟩ := Option.bind_eq_some_iff.1 h
    obtain ⟨hb, ⟨howed, hcomplete⟩ | ⟨owed, howed, rfl⟩⟩ := follow?_eq_some hs
    · obtain ⟨c, hc, hleast, rfl⟩ := exists_of_complete? hcomplete
      refine ⟨[b], bs, c, rfl, congrArg Nat.succ howed.symm, ?_, hc, ?_, hrest⟩
      · exact fun b' hb' => List.mem_singleton.1 hb' ▸ hb
      · rw [hc]
        exact hleast
    · obtain ⟨tail, rest, c, rfl, hlength, htail, hc, hleast, hrest⟩ := ih hrest
      refine ⟨b :: tail, rest, c, rfl, ?_, List.forall_mem_cons.2 ⟨hb, htail⟩, ?_, hleast, hrest⟩
      · rw [List.length_cons, hlength, howed]
      · rw [valueAfter_cons, hc]

/-! ## The octets of a character -/

private theorem eq_ofNat {b : UInt8} {n : ℕ} (h : n = b.toNat) : UInt8.ofNat n = b := by
  rw [h, UInt8.ofNat_toNat]

theorem utf8EncodeChar_of_one {c : Char} {a : UInt8} (ha : a.toNat < 0x80)
    (hc : c.toNat = a.toNat) : String.utf8EncodeChar c = [a] := by
  have hval : c.val.toNat = c.toNat := rfl
  unfold String.utf8EncodeChar
  simp only [hval]
  rw [if_pos (by omega), eq_ofNat hc]

theorem utf8EncodeChar_of_two {c : Char} {a b : UInt8} (ha : 0xC0 ≤ a.toNat) (ha' : a.toNat < 0xE0)
    (hb : Follows b) (hc : c.toNat = valueAfter (a.toNat - 0xC0) [b]) (hleast : 0x80 ≤ c.toNat) :
    String.utf8EncodeChar c = [a, b] := by
  have hval : c.val.toNat = c.toNat := rfl
  simp only [valueAfter, List.foldl_cons, List.foldl_nil] at hc
  unfold Follows at hb
  unfold String.utf8EncodeChar
  simp only [hval]
  rw [if_neg (by omega), if_pos (by omega), eq_ofNat (b := a) (by omega),
    eq_ofNat (b := b) (by omega)]

theorem utf8EncodeChar_of_three {c : Char} {a b b' : UInt8} (ha : 0xE0 ≤ a.toNat)
    (ha' : a.toNat < 0xF0) (hb : Follows b) (hb' : Follows b')
    (hc : c.toNat = valueAfter (a.toNat - 0xE0) [b, b']) (hleast : 0x800 ≤ c.toNat) :
    String.utf8EncodeChar c = [a, b, b'] := by
  have hval : c.val.toNat = c.toNat := rfl
  simp only [valueAfter, List.foldl_cons, List.foldl_nil] at hc
  unfold Follows at hb hb'
  unfold String.utf8EncodeChar
  simp only [hval]
  rw [if_neg (by omega), if_neg (by omega), if_pos (by omega), eq_ofNat (b := a) (by omega),
    eq_ofNat (b := b) (by omega), eq_ofNat (b := b') (by omega)]

theorem utf8EncodeChar_of_four {c : Char} {a b b' b'' : UInt8} (ha : 0xF0 ≤ a.toNat)
    (ha' : a.toNat < 0xF8) (hb : Follows b) (hb' : Follows b') (hb'' : Follows b'')
    (hc : c.toNat = valueAfter (a.toNat - 0xF0) [b, b', b'']) (hleast : 0x10000 ≤ c.toNat) :
    String.utf8EncodeChar c = [a, b, b', b''] := by
  have hval : c.val.toNat = c.toNat := rfl
  simp only [valueAfter, List.foldl_cons, List.foldl_nil] at hc
  unfold Follows at hb hb' hb''
  unfold String.utf8EncodeChar
  simp only [hval]
  rw [if_neg (by omega), if_neg (by omega), if_neg (by omega), eq_ofNat (b := a) (by omega),
    eq_ofNat (b := b) (by omega), eq_ofNat (b := b') (by omega), eq_ofNat (b := b'') (by omega)]

/-- **Octets that lead from between characters to between characters begin with the octets of a
character**, if there are any. -/
theorem exists_of_between {done done' : List Char} {a : UInt8} {bs : Bytes}
    (h : (a :: bs).foldlM State.step? ⟨done, none⟩ = some ⟨done', none⟩) :
    ∃ c rest, a :: bs = String.utf8EncodeChar c ++ rest ∧
      rest.foldlM State.step? ⟨c :: done, none⟩ = some ⟨done', none⟩ := by
  obtain ⟨s, hs, hrest⟩ := Option.bind_eq_some_iff.1 h
  replace hs : State.lead? done a.toNat = some s := hs
  unfold State.lead? at hs
  split_ifs at hs with hone hnone htwo hthree hfour
  · obtain ⟨c, hc, -, rfl⟩ := exists_of_complete? hs
    exact ⟨c, bs, by rw [utf8EncodeChar_of_one hone hc]; rfl, hrest⟩
  · cases hs
    obtain ⟨tail, rest, c, rfl, hlength, htail, hc, hleast, hnext⟩ := exists_of_unfinished hrest
    obtain ⟨b, rfl⟩ := List.length_eq_one_iff.1 hlength
    have hb := List.forall_mem_singleton.1 htail
    exact ⟨c, rest, by rw [utf8EncodeChar_of_two (by omega) htwo hb hc hleast]; rfl, hnext⟩
  · cases hs
    obtain ⟨tail, rest, c, rfl, hlength, htail, hc, hleast, hnext⟩ := exists_of_unfinished hrest
    obtain ⟨b, b', rfl⟩ := List.length_eq_two.1 hlength
    obtain ⟨hb, htail⟩ := List.forall_mem_cons.1 htail
    have hb' := List.forall_mem_singleton.1 htail
    exact ⟨c, rest, by rw [utf8EncodeChar_of_three (by omega) hthree hb hb' hc hleast]; rfl, hnext⟩
  · cases hs
    obtain ⟨tail, rest, c, rfl, hlength, htail, hc, hleast, hnext⟩ := exists_of_unfinished hrest
    obtain ⟨b, b', b'', rfl⟩ := List.length_eq_three.1 hlength
    obtain ⟨hb, htail⟩ := List.forall_mem_cons.1 htail
    obtain ⟨hb', htail⟩ := List.forall_mem_cons.1 htail
    have hb'' := List.forall_mem_singleton.1 htail
    exact ⟨c, rest, by rw [utf8EncodeChar_of_four (by omega) hfour hb hb' hb'' hc hleast]; rfl,
      hnext⟩

/-! ## Texts -/

/-- Octets that lead from between characters to between characters are those of the characters read
on the way. -/
theorem exists_encode_of_foldlM {done done' : List Char} {bs : Bytes}
    (h : bs.foldlM State.step? ⟨done, none⟩ = some ⟨done', none⟩) :
    ∃ cs, bs = encode cs ∧ done' = cs.reverse ++ done := by
  cases hbs : bs with
  | nil =>
    rw [hbs] at h
    cases h
    exact ⟨[], rfl, rfl⟩
  | cons a as =>
    rw [hbs] at h
    obtain ⟨c, rest, hsplit, hrest⟩ := exists_of_between h
    have hshorter : rest.length < bs.length := by
      have hpos := List.length_pos_iff.2 (String.utf8EncodeChar_ne_nil (c := c))
      have hlength := congrArg List.length hsplit
      rw [List.length_append] at hlength
      rw [hbs]
      omega
    obtain ⟨cs, rfl, rfl⟩ := exists_encode_of_foldlM hrest
    exact ⟨c :: cs, by rw [hsplit, encode_cons], by rw [List.reverse_cons, List.append_assoc]; rfl⟩
termination_by bs.length

/-- **Octets are decoded to characters exactly if they are the octets of these characters.** -/
theorem decode?_eq_some_iff {bs : Bytes} {cs : List Char} :
    decode? bs = some cs ↔ bs = encode cs := by
  constructor
  · intro h
    unfold decode? at h
    split at h
    · next done hdone =>
      cases h
      obtain ⟨cs, rfl, rfl⟩ := exists_encode_of_foldlM hdone
      rw [List.append_nil, List.reverse_reverse]
    · cases h
  · rintro rfl
    exact decode?_encode cs

/-- **Behind a text, octets are decoded as by themselves.** -/
theorem decode?_encode_append (cs : List Char) (bs : Bytes) :
    decode? (encode cs ++ bs) = (decode? bs).map (cs ++ ·) := by
  cases hwhole : decode? (encode cs ++ bs) with
  | none =>
    cases hrest : decode? bs with
    | none => rfl
    | some ds =>
      rw [decode?_eq_some_iff.1 hrest, ← encode_append, decode?_encode] at hwhole
      cases hwhole
  | some es =>
    -- The whole is read with the text in front already read.
    have hread : ∃ done, bs.foldlM State.step? ⟨cs.reverse, none⟩ = some ⟨done, none⟩ ∧
        done.reverse = es := by
      unfold decode? at hwhole
      rw [List.foldlM_append, State.start, foldlM_step?_encode] at hwhole
      split at hwhole
      · next done hdone =>
        rw [List.append_nil] at hdone
        exact ⟨done, hdone, Option.some.inj hwhole⟩
      · cases hwhole
    obtain ⟨done, hdone, rfl⟩ := hread
    obtain ⟨ds, rfl, rfl⟩ := exists_encode_of_foldlM hdone
    rw [decode?_encode, Option.map_some, List.reverse_append, List.reverse_reverse,
      List.reverse_reverse]

theorem exists_append_of_encode_eq {cs ds : List Char} {bs : Bytes}
    (h : encode cs = encode ds ++ bs) : ∃ es, cs = ds ++ es ∧ bs = encode es := by
  have hdecode := decode?_encode_append ds bs
  rw [← h, decode?_encode, eq_comm, Option.map_eq_some_iff] at hdecode
  obtain ⟨es, hes, rfl⟩ := hdecode
  exact ⟨es, rfl, decode?_eq_some_iff.1 hes⟩

end KeyControl.Utf8
