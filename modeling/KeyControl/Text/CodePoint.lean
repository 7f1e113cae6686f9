/-!
# Text that may have no encoding

A `String` holds Unicode scalar values only, so it always has a UTF-8 form.  Text that reaches the
library from outside may also hold surrogates that stand alone.  `Text` is that wider type, and
`Text.toString?` crosses from it to `String`: it succeeds exactly on text free of surrogates, and
otherwise names the first run of them.
-/

namespace KeyControl

/-- A code point: a Unicode scalar value, or half of a surrogate pair standing alone. -/
inductive CodePoint where
  | scalar (c : Char)
  | surrogate (index : Fin 2048)
deriving DecidableEq

namespace CodePoint

/-- The number Unicode gives the code point; surrogates occupy 2048 places from U+D800 on. -/
def value : CodePoint → Nat
  | scalar c => c.toNat
  | surrogate i => 0xD800 + i.val

/-- The code point of a number, if there is one. -/
def ofNat? (n : Nat) : Option CodePoint :=
  if h : n.isValidChar then some (scalar (Char.ofNatAux n h))
  else if h : 0xD800 ≤ n ∧ n < 0xE000 then some (surrogate ⟨n - 0xD800, by omega⟩)
  else none

/-- The character a code point stands for; a surrogate stands for none. -/
def char? : CodePoint → Option Char
  | scalar c => some c
  | surrogate _ => none

def isSurrogate : CodePoint → Bool
  | scalar _ => false
  | surrogate _ => true

end CodePoint

/-- A sequence of code points, surrogates admitted. -/
abbrev Text := List CodePoint

/-- A run of adjacent surrogates in a text: where it starts, how its first member is numbered, and
how many more follow that one. -/
structure SurrogateRun where
  start : Nat
  first : Fin 2048
  more : Nat
deriving DecidableEq

namespace Text

/-- The text a list of characters spells. -/
def ofChars (cs : List Char) : Text :=
  cs.map CodePoint.scalar

/-- The text a string spells. -/
def ofString (s : String) : Text :=
  ofChars s.toList

/-- The characters of a text, surrogates passed over. -/
def chars (t : Text) : List Char :=
  t.filterMap CodePoint.char?

/-- The first run of adjacent surrogates, if the text holds a surrogate at all. -/
def surrogates? (t : Text) : Option SurrogateRun :=
  match t.dropWhile (! ·.isSurrogate) with
  | .surrogate i :: rest =>
    some ⟨(t.takeWhile (! ·.isSurrogate)).length, i, (rest.takeWhile (·.isSurrogate)).length⟩
  | _ => none

/-- The string with the same code points, or the first run of surrogates that rules it out. -/
def toString? (t : Text) : Except SurrogateRun String :=
  match t.surrogates? with
  | none => .ok (String.ofList t.chars)
  | some run => .error run

@[simp] theorem ofChars_nil : ofChars [] = [] := rfl

@[simp] theorem ofChars_cons (c : Char) (cs : List Char) :
    ofChars (c :: cs) = .scalar c :: ofChars cs := rfl

@[simp] theorem chars_ofChars (cs : List Char) : (ofChars cs).chars = cs := by
  induction cs with
  | nil => rfl
  | cons c cs ih => simpa [chars, ofChars, CodePoint.char?] using ih

/-- No run of surrogates is found exactly if no code point is a surrogate. -/
theorem surrogates?_eq_none_iff {t : Text} :
    t.surrogates? = none ↔ ∀ p ∈ t, p.isSurrogate = false := by
  induction t with
  | nil => simp [surrogates?]
  | cons p t ih =>
    rw [List.forall_mem_cons]
    cases p with
    | scalar c =>
      have hdrop : (CodePoint.scalar c :: t).dropWhile (! ·.isSurrogate) =
          t.dropWhile (! ·.isSurrogate) := List.dropWhile_cons_of_pos rfl
      have hsame : surrogates? (.scalar c :: t) = none ↔ surrogates? t = none := by
        rw [surrogates?, surrogates?, hdrop]
        split <;> simp
      rw [hsame, ih]
      exact (and_iff_right rfl).symm
    | surrogate i => simp [surrogates?, CodePoint.isSurrogate]

@[simp] theorem surrogates?_ofChars (cs : List Char) : (ofChars cs).surrogates? = none := by
  simp [surrogates?_eq_none_iff, ofChars, CodePoint.isSurrogate]

/-- **A string is its own text.** -/
@[simp] theorem toString?_ofString (s : String) : (ofString s).toString? = .ok s := by
  simp [toString?, ofString, String.ofList_toList]

theorem ofChars_chars {t : Text} (h : t.surrogates? = none) : ofChars t.chars = t := by
  rw [surrogates?_eq_none_iff] at h
  induction t with
  | nil => rfl
  | cons p t ih =>
    obtain ⟨hp, ht⟩ := List.forall_mem_cons.1 h
    cases p with
    | scalar c => simpa [chars, ofChars, CodePoint.char?] using ih ht
    | surrogate i => cases hp

/-- **Crossing to `String` keeps every code point.** -/
theorem toString?_eq_ok_iff {t : Text} {s : String} : t.toString? = .ok s ↔ t = ofString s := by
  constructor
  · intro h
    unfold toString? at h
    split at h
    · next hn =>
      obtain rfl := Except.ok.inj h
      simp [ofString, ofChars_chars hn]
    · cases h
  · rintro rfl
    exact toString?_ofString s

end Text

end KeyControl
