import KeyControl.Proofs.Json.Scan

/-!
# Written values are read back

The tokens of a value lead the reader from any place where the value may start to the place behind
it (`Nesting.run?_tokens`).  The three statements of that kind, for values, for the items after the
first and for the entries after the first, are proved together, along the recursion of `tokens`.
Objects have no key twice in a storable value, so setting keys in order builds up the entries.

With the scanning of written tokens this gives the main statement: `ofChars?_write_append` and
`ofBytes?_encode_append` read back every storable value, also with blanks behind it.
-/

namespace KeyControl.Json

/-! ## What the tokens of a value are -/

mutual

theorem storable_of_mem_tokens : ∀ {v : Json}, v.storable = true →
    ∀ t ∈ tokens v, t.storable = true
  | .null, _ => List.forall_mem_singleton.2 rfl
  | .bool _, _ => List.forall_mem_singleton.2 rfl
  | .int _, h => List.forall_mem_singleton.2 h
  | .num _, _ => List.forall_mem_singleton.2 rfl
  | .str _, _ => List.forall_mem_singleton.2 rfl
  | .arr [], _ => List.forall_mem_cons.2 ⟨rfl, List.forall_mem_singleton.2 rfl⟩
  | .arr (v :: vs), h => by
    simp only [storable, storableItems, Bool.and_eq_true] at h
    exact List.forall_mem_cons.2 ⟨rfl, List.forall_mem_append.2
      ⟨storable_of_mem_tokens h.1, storable_of_mem_itemTokens h.2⟩⟩
  | .obj [], _ => List.forall_mem_cons.2 ⟨rfl, List.forall_mem_singleton.2 rfl⟩
  | .obj ((k, v) :: es), h => by
    simp only [storable, storableEntries, Bool.and_eq_true] at h
    exact List.forall_mem_cons.2 ⟨rfl, List.forall_mem_cons.2 ⟨rfl, List.forall_mem_cons.2
      ⟨rfl, List.forall_mem_append.2
        ⟨storable_of_mem_tokens h.2.1, storable_of_mem_entryTokens h.2.2⟩⟩⟩⟩

theorem storable_of_mem_itemTokens : ∀ {vs : List Json}, storableItems vs = true →
    ∀ t ∈ itemTokens vs, t.storable = true
  | [], _ => List.forall_mem_singleton.2 rfl
  | v :: vs, h => by
    simp only [storableItems, Bool.and_eq_true] at h
    exact List.forall_mem_cons.2 ⟨rfl, List.forall_mem_append.2
      ⟨storable_of_mem_tokens h.1, storable_of_mem_itemTokens h.2⟩⟩

theorem storable_of_mem_entryTokens : ∀ {es : List (String × Json)}, storableEntries es = true →
    ∀ t ∈ entryTokens es, t.storable = true
  | [], _ => List.forall_mem_singleton.2 rfl
  | (k, v) :: es, h => by
    simp only [storableEntries, Bool.and_eq_true] at h
    exact List.forall_mem_cons.2 ⟨rfl, List.forall_mem_cons.2 ⟨rfl, List.forall_mem_cons.2
      ⟨rfl, List.forall_mem_append.2
        ⟨storable_of_mem_tokens h.1, storable_of_mem_entryTokens h.2⟩⟩⟩⟩

end

theorem separated_false {ts : List Token} (h : separated true ts = true) :
    separated false ts = true := by
  cases ts with
  | nil => rfl
  | cons t ts =>
    simp only [separated, Bool.and_eq_true] at h
    exact h.2

mutual

/-- The tokens of a value are separated from each other and from a mark behind them. -/
theorem separated_tokens : ∀ (v : Json) {ts : List Token}, separated true ts = true →
    separated false (tokens v ++ ts) = true
  | .null, _, h => h
  | .bool _, _, h => h
  | .int _, _, h => h
  | .num _, _, h => h
  | .str _, _, h => h
  | .arr [], ts, h => by
    show separated false ts = true
    exact separated_false h
  | .arr (v :: vs), ts, h => by
    show separated false (tokens v ++ itemTokens vs ++ ts) = true
    rw [List.append_assoc]
    exact separated_tokens v (separated_itemTokens vs h)
  | .obj [], ts, h => by
    show separated false ts = true
    exact separated_false h
  | .obj ((_, v) :: es), ts, h => by
    show separated false (tokens v ++ entryTokens es ++ ts) = true
    rw [List.append_assoc]
    exact separated_tokens v (separated_entryTokens es h)

theorem separated_itemTokens : ∀ (vs : List Json) {ts : List Token}, separated true ts = true →
    separated true (itemTokens vs ++ ts) = true
  | [], _, h => separated_false h
  | v :: vs, ts, h => by
    show separated false (tokens v ++ itemTokens vs ++ ts) = true
    rw [List.append_assoc]
    exact separated_tokens v (separated_itemTokens vs h)

theorem separated_entryTokens : ∀ (es : List (String × Json)) {ts : List Token},
    separated true ts = true → separated true (entryTokens es ++ ts) = true
  | [], _, h => separated_false h
  | (_, v) :: es, ts, h => by
    show separated false (tokens v ++ entryTokens es ++ ts) = true
    rw [List.append_assoc]
    exact separated_tokens v (separated_entryTokens es h)

end

/-! ## Where the tokens of a value lead -/

namespace Nesting

@[simp] theorem run?_cons (n : Nesting) (t : Token) (ts : List Token) :
    n.run? (t :: ts) = (n.step? t).bind (·.run? ts) := rfl

/-- A nesting where a value may start: a token leads there as it leads from the start of a value in
the frames given, the end of an array apart. -/
def Opens (n : Nesting) (frames : List Frame) : Prop :=
  ∀ t, t ≠ .closeArray → n.step? t = begin? frames t

theorem opens_value (frames : List Frame) : Opens ⟨.value, frames⟩ frames :=
  fun _ _ => rfl

theorem opens_firstItem (frames : List Frame) :
    Opens ⟨.firstItem, frames⟩ (.array [] :: frames) := by
  intro t ht
  cases t with
  | closeArray => exact absurd rfl ht
  | _ => rfl

namespace Opens

variable {n : Nesting} {frames : List Frame}

theorem run?_scalar (hn : n.Opens frames) (v : Json) (ts : List Token) :
    n.run? (.scalar v :: ts) = (accept v frames).run? ts := by
  rw [run?_cons, hn (.scalar v) nofun]
  rfl

theorem run?_openArray (hn : n.Opens frames) (ts : List Token) :
    n.run? (.openArray :: ts) = run? ⟨.firstItem, frames⟩ ts := by
  rw [run?_cons, hn .openArray nofun]
  rfl

theorem run?_openObject (hn : n.Opens frames) (ts : List Token) :
    n.run? (.openObject :: ts) = run? ⟨.firstKey, frames⟩ ts := by
  rw [run?_cons, hn .openObject nofun]
  rfl

end Opens

mutual

/-- **The tokens of a value lead behind that value.** -/
theorem run?_tokens : ∀ {v : Json} {n : Nesting} {frames : List Frame} (ts : List Token),
    v.storable = true → n.Opens frames →
    n.run? (tokens v ++ ts) = (accept v frames).run? ts
  | .null, _, _, ts, _, hn => hn.run?_scalar _ ts
  | .bool _, _, _, ts, _, hn => hn.run?_scalar _ ts
  | .int _, _, _, ts, _, hn => hn.run?_scalar _ ts
  | .num _, _, _, ts, _, hn => hn.run?_scalar _ ts
  | .str _, _, _, ts, _, hn => hn.run?_scalar _ ts
  | .arr [], _, _, ts, _, hn => hn.run?_openArray (.closeArray :: ts)
  | .arr (v :: vs), n, frames, ts, h, hn => by
    simp only [storable, storableItems, Bool.and_eq_true] at h
    rw [tokens, List.cons_append, hn.run?_openArray, List.append_assoc,
      run?_tokens _ h.1 (opens_firstItem frames)]
    exact run?_itemTokens [v] ts h.2
  | .obj [], _, _, ts, _, hn => hn.run?_openObject (.closeObject :: ts)
  | .obj ((k, v) :: es), n, frames, ts, h, hn => by
    simp only [storable, storableEntries, Bool.and_eq_true, decide_eq_true_eq] at h
    rw [tokens, List.cons_append, hn.run?_openObject]
    show run? ⟨.value, .object [] k :: frames⟩ (tokens v ++ entryTokens es ++ ts) = _
    rw [List.append_assoc, run?_tokens _ h.2.1 (opens_value _)]
    exact @run?_entryTokens es frames [(k, v)] ts h.1 h.2.2

/-- The tokens of further items lead behind the array. -/
theorem run?_itemTokens : ∀ {vs : List Json} {frames : List Frame} (items : List Json)
    (ts : List Token), storableItems vs = true →
    run? ⟨.nextItem items, frames⟩ (itemTokens vs ++ ts) =
      (accept (.arr (items.reverse ++ vs)) frames).run? ts
  | [], frames, items, ts, _ => by
    rw [List.append_nil]
    rfl
  | v :: vs, frames, items, ts, h => by
    simp only [storableItems, Bool.and_eq_true] at h
    show run? ⟨.value, .array items :: frames⟩ (tokens v ++ itemTokens vs ++ ts) = _
    rw [List.append_assoc, run?_tokens _ h.1 (opens_value _)]
    show run? ⟨.nextItem (v :: items), frames⟩ (itemTokens vs ++ ts) = _
    rw [run?_itemTokens (v :: items) ts h.2, List.reverse_cons, List.append_assoc,
      List.singleton_append]

/-- The tokens of further entries lead behind the object. -/
theorem run?_entryTokens : ∀ {es : List (String × Json)} {frames : List Frame}
    (entries : List (String × Json)) (ts : List Token),
    ((entries ++ es).map Prod.fst).Nodup → storableEntries es = true →
    run? ⟨.nextEntry entries, frames⟩ (entryTokens es ++ ts) =
      (accept (.obj (entries ++ es)) frames).run? ts
  | [], frames, entries, ts, _, _ => by
    rw [List.append_nil]
    rfl
  | (k, v) :: es, frames, entries, ts, hkeys, h => by
    simp only [storableEntries, Bool.and_eq_true] at h
    have hput := put_eq_append_of_nodup hkeys
    show run? ⟨.value, .object entries k :: frames⟩ (tokens v ++ entryTokens es ++ ts) = _
    rw [List.append_assoc, run?_tokens _ h.1 (opens_value _)]
    show run? ⟨.nextEntry (put k v entries), frames⟩ (entryTokens es ++ ts) = _
    rw [List.append_cons] at hkeys ⊢
    rw [hput]
    exact run?_entryTokens (entries ++ [(k, v)]) ts hkeys h.2

end

end Nesting

/-! ## Values -/

theorem exists_run?_write {v : Json} (hv : v.storable = true) :
    ∃ r, Reader.start.run? (write v) = some r ∧ r.Reaches ⟨.complete v, []⟩ := by
  have hsep : separated false (tokens v) = true := by
    have h := @separated_tokens v [] rfl
    rwa [List.append_nil] at h
  have hrun : Nesting.run? ⟨.value, []⟩ (tokens v) = some ⟨.complete v, []⟩ := by
    have h := Nesting.run?_tokens [] hv (Nesting.opens_value [])
    rwa [List.append_nil] at h
  exact (Reader.Reaches.between _).exists_run?_flatMap_write (fun _ => rfl) hsep
    (storable_of_mem_tokens hv) hrun

/-- **A written value is read back**, also with blanks behind it. -/
theorem ofChars?_write_append {v : Json} {ws : List Char} (hv : v.storable = true)
    (hws : ∀ c ∈ ws, blank c = true) : ofChars? (write v ++ ws) = some v := by
  obtain ⟨r, hr, hreach⟩ := exists_run?_write hv
  obtain ⟨r', hr', hreach'⟩ := hreach.exists_run?_blanks hws
  rw [ofChars?, Reader.run?_append, hr, Option.bind_some, hr', Option.bind_some,
    hreach'.close?_complete]

/-- **A value written in UTF-8 is read back**, also with blanks behind it. -/
theorem ofBytes?_encode_append {v : Json} {ws : List Char} (hv : v.storable = true)
    (hws : ∀ c ∈ ws, blank c = true) : ofBytes? (encode v ++ Utf8.encode ws) = some v := by
  rw [ofBytes?, encode, ← Utf8.encode_append, Utf8.decode?_encode, Option.bind_some,
    ofChars?_write_append hv hws]

end KeyControl.Json
