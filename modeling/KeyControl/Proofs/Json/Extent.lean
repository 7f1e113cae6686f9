import KeyControl.Proofs.Json.Blanks
import KeyControl.Proofs.Json.RoundTrip

/-!
# Where a JSON text ends

A text that begins with a quote or an opening bracket ends with the mark that closes it.  Before
that mark it has no value, and behind it nothing may follow but blanks: if such a text has a value,
then no continuation of it has one, blanks apart (`ofChars?_append_eq_none`).  For numbers and words
this is false, as `1` and `12` show; that is why the first character matters.

The two halves of the argument are invariants of the reader.  Once a value is complete, any other
token is one too many; a reader that has begun one is in *surplus* and never comes to a value
(`Reader.Surplus`).  And a reader that has *begun* with a quote or a bracket never stands in a word
that could be the whole text (`Reader.Begun`), so that it can only end between tokens, with its
value complete.

Strings, arrays and objects are written that way.  So the written form of one is no longer read when
it is cut anywhere (`ofChars?_eq_none_of_cut`) or when anything but blanks is put behind it
(`ofChars?_write_append_eq_none`).
-/

namespace KeyControl.Json

/-- Whether a character opens a string, an array or an object. -/
def opens (c : Char) : Bool :=
  c == '\x22' || c == '[' || c == '\x7b'

/-! ## Modes -/

/-- Whether the machine is within a string. -/
def Mode.isWithin : Mode → Bool
  | .between => false
  | .word _ => false
  | _ => true

namespace Mode

/-- The last digit of an escape leaves the machine within the string. -/
theorem isWithin_of_closeUnit? {done : List Char} {high : Option ℕ} {value : ℕ} {m : Mode}
    (h : closeUnit? done high value = some m) : m.isWithin = true := by
  unfold closeUnit? at h
  cases high with
  | none =>
    dsimp only at h
    split_ifs at h
    · cases h
      rfl
    · cases h
      rfl
  | some unit =>
    dsimp only at h
    split_ifs at h
    cases h
    rfl

/-- **A character that completes no token leaves the token open that is open**, and the machine
within a string if it is within one. -/
theorem isWithin_of_step? {m m' : Mode} {c : Char} (h : m.step? c = some (m', []))
    (hm : m ≠ .between) : m' ≠ .between ∧ m'.isWithin = m.isWithin := by
  have hwithin : ∀ {m' : Mode}, m'.isWithin = true → m' ≠ .between ∧ m'.isWithin = true := by
    rintro m' h
    refine ⟨?_, h⟩
    rintro rfl
    cases h
  cases m with
  | between => exact absurd rfl hm
  | word letters =>
    rw [step?] at h
    split_ifs at h
    · obtain ⟨v, -, hv⟩ := Option.map_eq_some_iff.1 h
      cases hv
    · split at h
      · obtain ⟨v, -, hv⟩ := Option.map_eq_some_iff.1 h
        cases hv
      · cases h
        exact ⟨Mode.noConfusion, rfl⟩
  | quoted done =>
    rw [step?] at h
    split_ifs at h
    · cases h
    · cases h
      exact hwithin rfl
    · cases h
      exact hwithin rfl
  | escape done =>
    rw [step?] at h
    split_ifs at h
    · cases h
      exact hwithin rfl
    · obtain ⟨d, -, hd⟩ := Option.map_eq_some_iff.1 h
      cases hd
      exact hwithin rfl
  | unit done high digits value =>
    rw [step?] at h
    split at h
    · cases h
    · split_ifs at h
      · cases h
        exact hwithin rfl
      · obtain ⟨m₁, hclose, hm₁⟩ := Option.map_eq_some_iff.1 h
        cases hm₁
        exact hwithin (isWithin_of_closeUnit? hclose)
  | pairSlash done high =>
    rw [step?] at h
    split_ifs at h
    cases h
    exact hwithin rfl
  | pairLetter done high =>
    rw [step?] at h
    split_ifs at h
    cases h
    exact hwithin rfl

theorem ne_between_of_step?_between {m' : Mode} {c : Char}
    (h : between.step? c = some (m', [])) (hc : ¬ blank c = true) : m' ≠ .between := by
  rw [step?, if_neg hc] at h
  split_ifs at h
  · cases h
    exact Mode.noConfusion
  · split at h
    · cases h
    · cases h
      exact Mode.noConfusion

end Mode

/-! ## Nestings -/

namespace Nesting

theorem accept_ne_start (v : Json) (frames : List Frame) : accept v frames ≠ ⟨.value, []⟩ := by
  cases frames with
  | nil => exact nofun
  | cons frame frames => cases frame <;> exact nofun

theorem ne_start_of_begin? {frames : List Frame} {t : Token} {n : Nesting}
    (h : begin? frames t = some n) : n ≠ ⟨.value, []⟩ := by
  cases t with
  | scalar v =>
    cases h
    exact accept_ne_start v frames
  | openArray =>
    cases h
    exact nofun
  | openObject =>
    cases h
    exact nofun
  | _ => cases h

/-- **No token leads to the start.** -/
theorem ne_start_of_step? {n n' : Nesting} {t : Token} (h : n.step? t = some n') :
    n' ≠ ⟨.value, []⟩ := by
  unfold step? at h
  split at h
  · exact ne_start_of_begin? h
  · split at h
    · cases h
      exact accept_ne_start _ _
    · exact ne_start_of_begin? h
  · split at h
    · cases h
      exact nofun
    · cases h
      exact accept_ne_start _ _
    · cases h
  · split at h
    · cases h
      exact nofun
    · cases h
      exact accept_ne_start _ _
    · cases h
  · split at h
    · cases h
      exact nofun
    · cases h
  · split at h
    · cases h
      exact nofun
    · cases h
  · split at h
    · cases h
      exact nofun
    · cases h
      exact accept_ne_start _ _
    · cases h
  · cases h

theorem ne_start_of_run? {n n' : Nesting} {ts : List Token} (hn : n ≠ ⟨.value, []⟩)
    (h : n.run? ts = some n') : n' ≠ ⟨.value, []⟩ := by
  induction ts generalizing n with
  | nil =>
    cases h
    exact hn
  | cons t ts ih =>
    rw [run?_cons] at h
    obtain ⟨n₁, hn₁, h⟩ := Option.bind_eq_some_iff.1 h
    exact ih (ne_start_of_step? hn₁) h

/-- A scalar that is accepted completes the whole only where nothing is open. -/
theorem eq_nil_of_accept_eq_complete {v w : Json} {frames frames' : List Frame}
    (h : accept v frames = ⟨.complete w, frames'⟩) : frames = [] := by
  cases frames with
  | nil => rfl
  | cons frame frames => cases frame <;> cases h

/-- **A scalar that completes the whole stands at the start.** -/
theorem eq_start_of_step?_scalar {n : Nesting} {v w : Json} {frames : List Frame}
    (h : n.step? (.scalar v) = some ⟨.complete w, frames⟩) : n = ⟨.value, []⟩ := by
  obtain ⟨focus, outer⟩ := n
  cases focus with
  | value =>
    obtain rfl := eq_nil_of_accept_eq_complete (Option.some.inj h)
    rfl
  | firstItem => cases eq_nil_of_accept_eq_complete (Option.some.inj h)
  | nextItem items => cases h
  | firstKey => cases v <;> cases h
  | key entries => cases v <;> cases h
  | colon entries key => cases h
  | nextEntry entries => cases h
  | complete v => cases h

end Nesting

namespace Reader

/-- A step of the reader: the machine over characters moves on, and its tokens lead on. -/
theorem exists_of_step? {r r' : Reader} {c : Char} (h : r.step? c = some r') :
    ∃ tokens, r.mode.step? c = some (r'.mode, tokens) ∧
      r.nesting.run? tokens = some r'.nesting := by
  unfold step? at h
  split at h
  · cases h
  · next mode tokens hmode =>
    obtain ⟨n, hn, rfl⟩ := Option.map_eq_some_iff.1 h
    exact ⟨tokens, hmode, hn⟩

/-! ## More than a value -/

/-- A reader is in surplus if it has begun another token although its value is complete. -/
structure Surplus (r : Reader) : Prop where
  mode : r.mode ≠ .between
  complete : ∃ v frames, r.nesting = ⟨.complete v, frames⟩

namespace Surplus

variable {r r' : Reader} (h : r.Surplus)

include h

/-- A reader in surplus stays in surplus. -/
theorem step? {c : Char} (hstep : r.step? c = some r') : r'.Surplus := by
  obtain ⟨v, frames, hcomplete⟩ := h.complete
  obtain ⟨tokens, hmode, hnesting⟩ := exists_of_step? hstep
  rw [hcomplete] at hnesting
  cases tokens with
  | nil =>
    have hopen := (Mode.isWithin_of_step? hmode h.mode).1
    exact ⟨hopen, v, frames, (Option.some.inj hnesting).symm⟩
  | cons t ts => cases hnesting

theorem close?_eq_none : r.close? = none := by
  obtain ⟨v, frames, hcomplete⟩ := h.complete
  unfold close?
  rw [hcomplete]
  cases hmode : r.mode with
  | between => exact absurd hmode h.mode
  | word letters =>
    rw [Mode.close?]
    cases ofWord? letters.reverse with
    | none => rfl
    | some w => rfl
  | _ => rfl

theorem bind_close?_eq_none (cs : List Char) : (r.run? cs).bind close? = none := by
  induction cs generalizing r with
  | nil => exact h.close?_eq_none
  | cons c cs ih =>
    rw [run?_cons]
    cases hstep : r.step? c with
    | none => rfl
    | some r₁ => exact ih (h.step? hstep)

end Surplus

/-- **Behind a complete value nothing but blanks may follow.** -/
theorem bind_close?_of_complete {v : Json} {frames : List Frame} {cs : List Char}
    (hcs : ¬ ∀ c ∈ cs, blank c = true) :
    (run? ⟨.between, ⟨.complete v, frames⟩⟩ cs).bind close? = none := by
  induction cs with
  | nil => exact absurd (fun _ hc => absurd hc List.not_mem_nil) hcs
  | cons c cs ih =>
    rw [run?_cons]
    by_cases hblank : blank c = true
    · have hcs' : ¬ ∀ c ∈ cs, blank c = true := fun hall =>
        hcs (List.forall_mem_cons.2 ⟨hblank, hall⟩)
      rw [(Reaches.between _).step?_blank hblank]
      exact ih hcs'
    · -- Another token begins here, if the character may stand here at all.
      cases hstep : step? ⟨.between, ⟨.complete v, frames⟩⟩ c with
      | none => rfl
      | some r =>
        have hsurplus : r.Surplus := by
          obtain ⟨tokens, hmode, hnesting⟩ := exists_of_step? hstep
          dsimp only at hmode hnesting
          cases tokens with
          | nil =>
            exact ⟨Mode.ne_between_of_step?_between hmode hblank, v, frames,
              (Option.some.inj hnesting).symm⟩
          | cons t ts => cases hnesting
        exact hsurplus.bind_close?_eq_none cs

/-! ## Texts that begin with a quote or a bracket -/

/-- A reader has begun with a quote or a bracket: where no token has been taken yet, it is within a
string. -/
def Begun (r : Reader) : Prop :=
  r.nesting = ⟨.value, []⟩ → r.mode.isWithin = true

theorem begun_of_opens {c : Char} {r : Reader} (hc : opens c = true)
    (h : start.step? c = some r) : r.Begun := by
  simp only [opens, Bool.or_eq_true, beq_iff_eq] at hc
  rcases hc with (rfl | rfl) | rfl
  · cases h
    exact fun _ => rfl
  · cases h
    exact nofun
  · cases h
    exact nofun

namespace Begun

variable {r r' : Reader} (h : r.Begun)

include h

/-- A reader that has begun goes on with what it has begun. -/
theorem step? {c : Char} (hstep : r.step? c = some r') : r'.Begun := by
  intro hstart
  obtain ⟨tokens, hmode, hnesting⟩ := exists_of_step? hstep
  rw [hstart] at hnesting
  cases tokens with
  | nil =>
    have hwithin := h (Option.some.inj hnesting)
    have hbetween : r.mode ≠ .between := by
      intro hbetween
      rw [hbetween] at hwithin
      cases hwithin
    rw [(Mode.isWithin_of_step? hmode hbetween).2, hwithin]
  | cons t ts =>
    obtain ⟨n, hn, hnesting⟩ := Option.bind_eq_some_iff.1 hnesting
    exact absurd rfl (Nesting.ne_start_of_run? (Nesting.ne_start_of_step? hn) hnesting)

theorem run? {cs : List Char} (hrun : r.run? cs = some r') : r'.Begun := by
  induction cs generalizing r with
  | nil =>
    cases hrun
    exact h
  | cons c cs ih =>
    rw [run?_cons] at hrun
    obtain ⟨r₁, hstep, hrun⟩ := Option.bind_eq_some_iff.1 hrun
    exact ih (h.step? hstep) hrun

/-- **A reader that has begun has a value only between tokens**, with the value complete. -/
theorem exists_of_close? {v : Json} (hclose : r.close? = some v) :
    ∃ frames, r = ⟨.between, ⟨.complete v, frames⟩⟩ := by
  obtain ⟨mode, nesting⟩ := r
  unfold close? at hclose
  split at hclose
  · cases hclose
  · next tokens hmode =>
    split at hclose
    · next w frames hnesting =>
      cases hclose
      cases mode with
      | between =>
        cases hmode
        exact ⟨frames, congrArg _ (Option.some.inj hnesting)⟩
      | word letters =>
        -- The word would be the whole text, but the text has begun otherwise.
        obtain ⟨w, -, rfl⟩ := Option.map_eq_some_iff.1 hmode
        rw [Nesting.run?_cons] at hnesting
        obtain ⟨n, hn, hnil⟩ := Option.bind_eq_some_iff.1 hnesting
        cases hnil
        cases h (Nesting.eq_start_of_step?_scalar hn)
      | _ => cases hmode
    · cases hclose

/-- **Behind its value, a reader that has begun takes nothing but blanks.** -/
theorem bind_close?_eq_none {v : Json} (hclose : r.close? = some v) {cs : List Char}
    (hcs : ¬ ∀ c ∈ cs, blank c = true) : (r.run? cs).bind close? = none := by
  obtain ⟨frames, rfl⟩ := h.exists_of_close? hclose
  exact bind_close?_of_complete hcs

end Begun

end Reader

/-- **A text that begins with a quote or a bracket and has a value has none with anything but blanks
behind it.** -/
theorem ofChars?_append_eq_none {c : Char} {cs ds : List Char} (hc : opens c = true)
    (h : (ofChars? (c :: cs)).isSome = true) (hds : ¬ ∀ d ∈ ds, blank d = true) :
    ofChars? (c :: cs ++ ds) = none := by
  obtain ⟨v, hv⟩ := Option.isSome_iff_exists.1 h
  obtain ⟨r, hrun, hclose⟩ := Option.bind_eq_some_iff.1 hv
  obtain ⟨r₁, hstep, hrest⟩ := Option.bind_eq_some_iff.1 hrun
  have hbegun := (Reader.begun_of_opens hc hstep).run? hrest
  rw [ofChars?, Reader.run?_append, hrun, Option.bind_some]
  exact hbegun.bind_close?_eq_none hclose hds

/-! ## Written strings, arrays and objects -/

/-- Whether the written form of a value stands between marks of its own. -/
def isEnclosed : Json → Bool
  | str _ => true
  | arr _ => true
  | obj _ => true
  | _ => false

theorem exists_itemTokens_eq_concat (vs : List Json) :
    ∃ ts, itemTokens vs = ts ++ [.closeArray] := by
  induction vs with
  | nil => exact ⟨[], rfl⟩
  | cons v vs ih =>
    obtain ⟨ts, hts⟩ := ih
    refine ⟨.comma :: (tokens v ++ ts), ?_⟩
    rw [itemTokens, hts, List.cons_append, List.append_assoc]

theorem exists_entryTokens_eq_concat (es : List (String × Json)) :
    ∃ ts, entryTokens es = ts ++ [.closeObject] := by
  induction es with
  | nil => exact ⟨[], rfl⟩
  | cons e es ih =>
    obtain ⟨k, v⟩ := e
    obtain ⟨ts, hts⟩ := ih
    refine ⟨.comma :: .scalar (.str k) :: .colon :: (tokens v ++ ts), ?_⟩
    rw [entryTokens, hts, List.cons_append, List.cons_append, List.cons_append, List.append_assoc]

theorem exists_write_eq_opens {v : Json} (hv : v.isEnclosed = true) :
    ∃ c cs, write v = c :: cs ∧ opens c = true := by
  cases v with
  | str s => exact ⟨'\x22', _, rfl, rfl⟩
  | arr items =>
    cases items with
    | nil => exact ⟨'[', _, rfl, rfl⟩
    | cons w ws => exact ⟨'[', _, rfl, rfl⟩
  | obj entries =>
    cases entries with
    | nil => exact ⟨'\x7b', _, rfl, rfl⟩
    | cons e es => exact ⟨'\x7b', _, rfl, rfl⟩
  | _ => cases hv

/-- The tokens of an enclosed value end with one that is written with a quote or a bracket at the
end. -/
theorem exists_tokens_eq_concat {v : Json} (hv : v.isEnclosed = true) :
    ∃ ts t cs c, tokens v = ts ++ [t] ∧ t.write = cs ++ [c] ∧ blank c = false := by
  cases v with
  | str s => exact ⟨[], .scalar (.str s), '\x22' :: s.toList.flatMap escape, '\x22', rfl, rfl, rfl⟩
  | arr items =>
    cases items with
    | nil => exact ⟨[.openArray], .closeArray, [], ']', rfl, rfl, rfl⟩
    | cons w ws =>
      obtain ⟨ts, hts⟩ := exists_itemTokens_eq_concat ws
      refine ⟨.openArray :: (tokens w ++ ts), .closeArray, [], ']', ?_, rfl, rfl⟩
      rw [tokens, hts, List.cons_append, List.append_assoc]
  | obj entries =>
    cases entries with
    | nil => exact ⟨[.openObject], .closeObject, [], '\x7d', rfl, rfl, rfl⟩
    | cons e es =>
      obtain ⟨k, w⟩ := e
      obtain ⟨ts, hts⟩ := exists_entryTokens_eq_concat es
      refine ⟨.openObject :: .scalar (.str k) :: .colon :: (tokens w ++ ts), .closeObject, [],
        '\x7d', ?_, rfl, rfl⟩
      rw [tokens, hts, List.cons_append, List.cons_append, List.cons_append, List.append_assoc]
  | _ => cases hv

theorem exists_getLast?_write {v : Json} (hv : v.isEnclosed = true) :
    ∃ c, (write v).getLast? = some c ∧ blank c = false := by
  obtain ⟨ts, t, cs, c, htokens, hwrite, hc⟩ := exists_tokens_eq_concat hv
  refine ⟨c, ?_, hc⟩
  rw [write, htokens, List.flatMap_append, List.flatMap_singleton, hwrite, ← List.append_assoc,
    List.getLast?_concat]

variable {v : Json} (hv : v.storable = true) (henclosed : v.isEnclosed = true)

include hv henclosed

/-- **A written string, array or object has no value with anything but blanks behind it.** -/
theorem ofChars?_write_append_eq_none {ds : List Char} (hds : ¬ ∀ d ∈ ds, blank d = true) :
    ofChars? (write v ++ ds) = none := by
  obtain ⟨c, cs, hwrite, hc⟩ := exists_write_eq_opens henclosed
  have hread := @ofChars?_write_append v [] hv fun _ hc => absurd hc List.not_mem_nil
  rw [List.append_nil, hwrite] at hread
  rw [hwrite]
  exact ofChars?_append_eq_none hc (by rw [hread]; rfl) hds

/-- **A written string, array or object has no value when it is cut**, wherever that is. -/
theorem ofChars?_eq_none_of_cut {cs ds : List Char} (hwrite : write v = cs ++ ds) (hds : ds ≠ []) :
    ofChars? cs = none := by
  cases cs with
  | nil => rfl
  | cons b bs =>
    obtain ⟨c, rest, hfirst, hc⟩ := exists_write_eq_opens henclosed
    obtain ⟨d, hlast, hd⟩ := exists_getLast?_write henclosed
    have hread := @ofChars?_write_append v [] hv fun _ hc => absurd hc List.not_mem_nil
    rw [List.append_nil, hwrite] at hread
    rw [hwrite] at hfirst
    rw [hwrite, List.getLast?_append_of_ne_nil _ hds] at hlast
    obtain ⟨rfl, -⟩ := List.cons.inj hfirst
    have hds' : ¬ ∀ d ∈ ds, blank d = true := by
      intro hall
      rw [hall d (List.mem_of_getLast? hlast)] at hd
      cases hd
    -- If the beginning had a value, the rest behind it would be one character too many.
    by_contra hvalue
    rw [ofChars?_append_eq_none hc (Option.isSome_iff_ne_none.2 hvalue) hds'] at hread
    cases hread

end KeyControl.Json
