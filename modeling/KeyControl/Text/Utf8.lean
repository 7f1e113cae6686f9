import KeyControl.Bytes

/-!
# UTF-8

`encode` writes characters as octets.  `decode?` reads octets back with a machine that takes one
octet at a time: between characters it waits for a leading octet, and inside one it keeps the value
collected so far, the number of continuation octets still owed and the least value that the length
announced may carry.  The last of these refuses overlong forms, and a value that is no character
(a surrogate, or one above U+10FFFF) is refused when it is complete.
-/

namespace KeyControl.Utf8

/-- The UTF-8 form of a list of characters. -/
def encode (cs : List Char) : Bytes :=
  cs.flatMap String.utf8EncodeChar

/-- A character of which some octets are still to come: `owed` more after the next one, the value so
far, and the least value allowed. -/
structure Unfinished where
  owed : Nat
  value : Nat
  least : Nat
deriving DecidableEq

/-- What has been read: the characters, newest first, and the one in the making. -/
structure State where
  done : List Char
  unfinished : Option Unfinished
deriving DecidableEq

def State.start : State := ⟨[], none⟩

/-- Complete a character; overlong forms and values that are no character are refused. -/
def State.complete? (done : List Char) (value least : Nat) : Option State :=
  if h : value.isValidChar then
    if least ≤ value then some ⟨Char.ofNatAux value h :: done, none⟩ else none
  else none

/-- Take a leading octet. -/
def State.lead? (done : List Char) (n : Nat) : Option State :=
  if n < 0x80 then complete? done n 0
  else if n < 0xC0 then none
  else if n < 0xE0 then some ⟨done, some ⟨0, n - 0xC0, 0x80⟩⟩
  else if n < 0xF0 then some ⟨done, some ⟨1, n - 0xE0, 0x800⟩⟩
  else if n < 0xF8 then some ⟨done, some ⟨2, n - 0xF0, 0x10000⟩⟩
  else none

/-- Take a continuation octet. -/
def State.follow? (done : List Char) (u : Unfinished) (n : Nat) : Option State :=
  if n < 0x80 ∨ 0xC0 ≤ n then none
  else
    let value := u.value * 64 + (n - 0x80)
    match u.owed with
    | 0 => complete? done value u.least
    | owed + 1 => some ⟨done, some ⟨owed, value, u.least⟩⟩

/-- Take one octet. -/
def State.step? (s : State) (b : UInt8) : Option State :=
  match s.unfinished with
  | none => lead? s.done b.toNat
  | some u => follow? s.done u b.toNat

/-- The characters whose UTF-8 form the octets are, if they are one. -/
def decode? (bs : Bytes) : Option (List Char) :=
  match bs.foldlM State.step? .start with
  | some ⟨done, none⟩ => some done.reverse
  | _ => none

@[simp] theorem encode_nil : encode [] = [] := rfl

@[simp] theorem encode_cons (c : Char) (cs : List Char) :
    encode (c :: cs) = String.utf8EncodeChar c ++ encode cs := rfl

@[simp] theorem encode_append (cs ds : List Char) : encode (cs ++ ds) = encode cs ++ encode ds := by
  simp [encode]

/-! ## Reading back what was written -/

private theorem toNat_ofNat_of_lt {n : Nat} (h : n < 256) : (UInt8.ofNat n).toNat = n := by
  rw [UInt8.toNat_ofNat']
  omega

private theorem ofNatAux_toNat (c : Char) (h : c.toNat.isValidChar) :
    Char.ofNatAux c.toNat h = c := by
  apply Char.ext
  apply UInt32.toNat_inj.1
  rfl

/-- **The octets of one character lead from between characters to between characters**, with that
character read. -/
theorem foldlM_step?_utf8EncodeChar (c : Char) (done : List Char) :
    (String.utf8EncodeChar c).foldlM State.step? ⟨done, none⟩ = some ⟨c :: done, none⟩ := by
  have hv : c.toNat.isValidChar := c.valid
  have hc : c.val.toNat = c.toNat := rfl
  have hlt : c.toNat < 0x110000 := by
    rcases hv with h | h
    · omega
    · omega
  have close : ∀ v least : Nat, v = c.toNat → least ≤ v →
      State.complete? done v least = some ⟨c :: done, none⟩ := by
    intro v least hvc hl
    subst hvc
    rw [State.complete?, dif_pos hv, if_pos hl, ofNatAux_toNat]
  unfold String.utf8EncodeChar
  simp only [hc]
  split
  · rw [List.foldlM_cons]
    simp only [State.step?, State.lead?, toNat_ofNat_of_lt (show c.toNat < 256 by omega)]
    rw [if_pos (by omega), close _ _ rfl (by omega)]
    rfl
  · split
    · simp only [List.foldlM_cons, State.step?, State.lead?,
        toNat_ofNat_of_lt (show c.toNat / 64 % 32 + 192 < 256 by omega)]
      rw [if_neg (by omega), if_neg (by omega), if_pos (by omega)]
      simp only [Option.bind_eq_bind, Option.bind_some, State.follow?,
        toNat_ofNat_of_lt (show c.toNat % 64 + 128 < 256 by omega)]
      rw [if_neg (by omega), close _ _ (by omega) (by omega)]
      rfl
    · split
      · simp only [List.foldlM_cons, State.step?, State.lead?,
          toNat_ofNat_of_lt (show c.toNat / 4096 % 16 + 224 < 256 by omega)]
        rw [if_neg (by omega), if_neg (by omega), if_neg (by omega), if_pos (by omega)]
        simp only [Option.bind_eq_bind, Option.bind_some, State.follow?,
          toNat_ofNat_of_lt (show c.toNat / 64 % 64 + 128 < 256 by omega)]
        rw [if_neg (by omega)]
        simp only [Option.bind_some, toNat_ofNat_of_lt (show c.toNat % 64 + 128 < 256 by omega)]
        rw [if_neg (by omega), close _ _ (by omega) (by omega)]
        rfl
      · simp only [List.foldlM_cons, State.step?, State.lead?,
          toNat_ofNat_of_lt (show c.toNat / 262144 % 8 + 240 < 256 by omega)]
        rw [if_neg (by omega), if_neg (by omega), if_neg (by omega), if_neg (by omega),
          if_pos (by omega)]
        simp only [Option.bind_eq_bind, Option.bind_some, State.follow?,
          toNat_ofNat_of_lt (show c.toNat / 4096 % 64 + 128 < 256 by omega)]
        rw [if_neg (by omega)]
        simp only [Option.bind_some,
          toNat_ofNat_of_lt (show c.toNat / 64 % 64 + 128 < 256 by omega)]
        rw [if_neg (by omega)]
        simp only [Option.bind_some, toNat_ofNat_of_lt (show c.toNat % 64 + 128 < 256 by omega)]
        rw [if_neg (by omega), close _ _ (by omega) (by omega)]
        rfl

theorem foldlM_step?_encode (cs done : List Char) :
    (encode cs).foldlM State.step? ⟨done, none⟩ = some ⟨cs.reverse ++ done, none⟩ := by
  induction cs generalizing done with
  | nil => rfl
  | cons c cs ih =>
    rw [encode_cons, List.foldlM_append, foldlM_step?_utf8EncodeChar]
    simp [ih]

/-- **What is encoded is decoded.** -/
@[simp] theorem decode?_encode (cs : List Char) : decode? (encode cs) = some cs := by
  simp [decode?, State.start, foldlM_step?_encode]

end KeyControl.Utf8
