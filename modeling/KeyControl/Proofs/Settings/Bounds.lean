import KeyControl.Proofs.Link.Lifecycle
import KeyControl.Proofs.Settings.Spelling
import KeyControl.Settings.Basic

/-!
# Settings keep their bounds

An integer variable that is not blank gives what it spells, if that is not less than the least
value allowed, and else an error that names the variable (`readInteger_eq_ok_iff`,
`exists_readInteger_eq_error`).  Only the default is taken as it is, and the defaults of the
settings are within their bounds, so that all settings are (`Settings.bounded_of_load`).

The bound on the read size is what a link relies on.  In all of its reads it asks for as many octets
as it was made to (`Link.AsksFor.run`), and a socket that is asked for at least one gives at least
one, unless it gives none at all (`Inbox.receive_ne_nil`).  So what a link takes for the end of the
stream is never a read that asked for nothing.
-/

namespace KeyControl

/-! ## One variable -/

section Variable

variable {name : Text} {default least n : Int}

/-- An unset or blank variable leaves the default, even one that is less than the least value. -/
theorem readInteger_of_blank {raw : Option Text} (h : ∀ t ∈ raw, t.blank = true) :
    readInteger name raw default least = .ok default := by
  cases raw with
  | none => rfl
  | some t => rw [readInteger, if_pos (h t rfl)]

/-- **What a variable gives is what is read from it**, if that is not too small. -/
theorem readInteger_eq_ok_iff {t : Text} (ht : t.blank = false) :
    readInteger name (some t) default least = .ok n ↔ t.integer? = some n ∧ least ≤ n := by
  rw [readInteger, ht, if_neg Bool.false_ne_true]
  cases t.integer? with
  | none => exact ⟨nofun, fun h => nomatch h.1⟩
  | some m =>
    rw [Option.some.injEq]
    dsimp only
    split
    · next hm =>
      refine ⟨nofun, ?_⟩
      rintro ⟨rfl, hn⟩
      omega
    · next hm =>
      rw [Except.ok.injEq]
      refine ⟨?_, And.left⟩
      rintro rfl
      exact ⟨rfl, Int.not_lt.1 hm⟩

/-- Every error begins with the name of the variable. -/
theorem prefix_text_of_readInteger {raw : Option Text} {e : SettingError}
    (h : readInteger name raw default least = .error e) : name <+: e.text := by
  cases raw with
  | none => cases h
  | some t =>
    rw [readInteger] at h
    split at h
    · cases h
    · split at h
      · cases h
        exact List.prefix_append _ _
      · split at h
        · cases h
          exact List.prefix_append _ _
        · cases h

/-- **A variable from which nothing is read that is great enough gives an error that names it.** -/
theorem exists_readInteger_eq_error {t : Text} (ht : t.blank = false)
    (h : ¬ ∃ n, t.integer? = some n ∧ least ≤ n) :
    ∃ e, readInteger name (some t) default least = .error e ∧ name <+: e.text := by
  cases hread : readInteger name (some t) default least with
  | ok n => exact absurd ⟨n, (readInteger_eq_ok_iff ht).1 hread⟩ h
  | error e => exact ⟨e, rfl, prefix_text_of_readInteger hread⟩

theorem le_of_readInteger {raw : Option Text} (hdefault : least ≤ default)
    (h : readInteger name raw default least = .ok n) : least ≤ n := by
  cases raw with
  | none =>
    cases h
    exact hdefault
  | some t =>
    cases ht : t.blank with
    | true =>
      have hblank : ∀ t' ∈ some t, t'.blank = true := by
        rintro _ ⟨⟩
        exact ht
      rw [readInteger_of_blank hblank] at h
      cases h
      exact hdefault
    | false => exact ((readInteger_eq_ok_iff ht).1 h).2

end Variable

/-! ## The settings -/

/-- **Settings that are read are within their bounds.** -/
theorem Settings.bounded_of_load {env : Environment} {s : Settings} (h : load env = .ok s) :
    0 ≤ s.maxLine ∧ 1 ≤ s.recvSize := by
  rw [load] at h
  split at h
  · cases h
  · split at h
    · cases h
    · next hmaxLine =>
      split at h
      · cases h
      · next hrecvSize =>
        cases h
        exact ⟨le_of_readInteger (by decide) hmaxLine, le_of_readInteger (by decide) hrecvSize⟩

/-! ## How much is read at once -/

/-- **A read that asks for something does not give nothing**, as the end of a stream does. -/
theorem Inbox.receive_ne_nil {size : Nat} (hsize : 0 < size) (es : Inbox) :
    (receive size es).2.1 ≠ .octets [] := by
  intro h
  have hexplains := receive_explains hsize es
  rw [h] at hexplains
  exact hexplains.1 rfl

namespace Link

variable {π : Type}

/-- A link asks for so many octets in every read, and has never asked for more or fewer. -/
structure AsksFor (size : Int) (l : Link π) : Prop where
  readSize : l.readSize = size
  asked : ∀ n, .recv n ∈ l.journal → n = size

theorem asksFor_new (socket : Option Socket) (size limit : Int) (peer : π) :
    AsksFor size (new socket size limit peer) where
  readSize := rfl
  asked _ h := absurd h List.not_mem_nil

namespace AsksFor

variable {size : Int} {l : Link π} (h : AsksFor size l)

include h

theorem of_append {l' : Link π} {calls : List Call} (hsize : l'.readSize = l.readSize)
    (hjournal : l'.journal = calls ++ l.journal) (hcalls : ∀ n, .recv n ∈ calls → n = l.readSize) :
    AsksFor size l' where
  readSize := hsize.trans h.readSize
  asked n hn := by
    rw [hjournal] at hn
    exact (List.mem_append.1 hn).elim (fun hmem => (hcalls n hmem).trans h.readSize) (h.asked n)

theorem send {answer : Peer π} (hanswer : answer.KeepsOff) (p : Parcel) :
    AsksFor size (l.send answer p).2 := by
  rw [Link.send]
  split
  · exact h
  · split
    · exact h
    · split
      · next bs _ _ s _ =>
        obtain ⟨inbox, faults, peer, calls, hwrite, -, hcalls⟩ := l.exists_write_eq hanswer bs s
        rw [hwrite]
        refine h.of_append rfl (List.append_cons _ _ _) fun n hn => ?_
        rcases List.mem_append.1 hn with hmem | hmem
        · cases hcalls _ hmem
        · cases List.mem_singleton.1 hmem
      · exact h

theorem recv (decode : Decoder) (wait : Wait) : AsksFor size (l.recv decode wait).2 := by
  obtain ⟨calls, hjournal, hcalls⟩ := l.exists_calls_recv decode wait
  refine h.of_append (l.readSize_recv decode wait) hjournal fun n hn => ?_
  rcases hcalls _ hn with hcall | hcall
  · cases hcall
  · exact Call.recv.inj hcall

theorem close : AsksFor size l.close := by
  rw [Link.close]
  split
  · exact ⟨h.readSize, h.asked⟩
  · have hclose : ∀ n, .recv n ∈ [Call.close] → n = l.readSize := by
      intro n hn
      cases List.mem_singleton.1 hn
    split <;> exact h.of_append rfl rfl hclose

/-- **No use of a link changes what it asks for.** -/
theorem use {answer : Peer π} (hanswer : answer.KeepsOff) (decode : Decoder) (u : Use) :
    AsksFor size (l.use answer decode u).2 := by
  cases u with
  | send p => exact h.send hanswer p
  | recv wait => exact h.recv decode wait
  | reopen =>
    show AsksFor size l.reopen.2
    rw [reopen]
    split
    · exact h
    · exact ⟨h.readSize, h.asked⟩
  | close => exact h.close

end AsksFor

/-- **However a link is used, it asks for the same number of octets in every read.** -/
theorem AsksFor.run {answer : Peer π} (hanswer : answer.KeepsOff) (decode : Decoder)
    (us : List Use) {size : Int} {l : Link π} (h : AsksFor size l) :
    AsksFor size (Link.run answer decode us l).2 := by
  induction us generalizing l with
  | nil => exact h
  | cons u us ih => exact ih (h.use hanswer decode u)

end Link

/-! ## Integer settings -/

/-- **Integers are read as they are spelled, and settings keep their bounds.**

A variable that is not blank, has at most so many digits and holds no information separator gives
exactly the integer that it spells, if this is not less than the least value, and otherwise an error
that names the variable.  A variable that is blank or unset gives the default.

So whatever the environment is, either it is refused, or the line limit is not negative and the read
size is positive.  A read of that size does not give nothing, whatever happens on the socket, and a
link with these settings asks for at least one octet in every read, however it is used. -/
theorem Settings.readInteger_spelled (name : Text) (default least : Int) :
    (∀ t : Text, t.blank = false → t.digitCount ≤ spellingLimit → t.Unseparated →
      (∀ n, readInteger name (some t) default least = .ok n ↔ t.Spells n ∧ least ≤ n) ∧
      ((¬ ∃ n, t.Spells n ∧ least ≤ n) →
        ∃ e, readInteger name (some t) default least = .error e ∧ name <+: e.text)) ∧
    (∀ raw : Option Text, (∀ t ∈ raw, t.blank = true) →
      readInteger name raw default least = .ok default) ∧
    ∀ env : Environment,
      (∃ e, load env = .error e) ∨
      ∃ s, load env = .ok s ∧ 0 ≤ s.maxLine ∧ 1 ≤ s.recvSize ∧
        (∀ inbox, (Inbox.receive s.recvSize.toNat inbox).2.1 ≠ .octets []) ∧
        ∀ (π : Type) (answer : Peer π), answer.KeepsOff →
          ∀ (decode : Decoder) (socket : Option Socket) (peer : π) (us : List Link.Use),
            let l := (Link.run answer decode us (.new socket s.recvSize s.maxLine peer)).2
            ∀ size, .recv size ∈ l.journal → 1 ≤ size := by
  refine ⟨fun t hblank hlimit ht => ?_, fun raw => readInteger_of_blank, fun env => ?_⟩
  · have hspells : ∀ n, t.integer? = some n ↔ t.Spells n := fun n =>
      Text.integer?_eq_some_iff_spells ht hlimit
    simp only [← hspells]
    exact ⟨fun n => readInteger_eq_ok_iff hblank, exists_readInteger_eq_error hblank⟩
  · cases hload : load env with
    | error e => exact .inl ⟨e, rfl⟩
    | ok s =>
      obtain ⟨hmaxLine, hrecvSize⟩ := bounded_of_load hload
      refine .inr ⟨s, rfl, hmaxLine, hrecvSize, Inbox.receive_ne_nil (by omega), ?_⟩
      intro π answer hanswer decode socket peer us l size hsize
      have hnew := Link.asksFor_new socket s.recvSize s.maxLine peer
      rw [(hnew.run hanswer decode us).asked size hsize]
      exact hrecvSize

/-- Digits of three scripts with an underscore between them, behind a sign and among blanks, are read
as 1024.  Where the least value is greater, they are refused. -/
theorem Settings.readInteger_spelled_scripts :
    let name := Text.ofString "REMAPWIRE_RECV_SIZE"
    let digits : Text :=
      [.scalar '\uff11', .scalar '_', .scalar '\u0660', .scalar '2', .scalar '4']
    let t : Text := [.scalar '\u3000', .scalar '+'] ++ digits ++ [.scalar '\n']
    t.blank = false ∧ t.digitCount ≤ spellingLimit ∧ t.Unseparated ∧ t.Spells 1024 ∧
      readInteger name (some t) 4096 1 = .ok 1024 ∧
      ∃ e, readInteger name (some t) 4096 2000 = .error e ∧ name <+: e.text := by
  intro name digits t
  have hblank : t.blank = false := rfl
  have hlimit : t.digitCount ≤ spellingLimit := by decide
  have ht : t.Unseparated := by
    show ∀ p ∈ t, _
    decide
  have hdigits : digits.SpellsDigits [1, 0, 2, 4] :=
    .underscore rfl (.next rfl (.next rfl (.last rfl)))
  have hspells : t.Spells 1024 :=
    ⟨[.scalar '\u3000'], .scalar '+' :: digits, [.scalar '\n'], rfl, rfl, rfl, .plus hdigits⟩
  obtain ⟨hread, -⟩ := (readInteger_spelled name 4096 1).1 t hblank hlimit ht
  obtain ⟨hread', herror⟩ := (readInteger_spelled name 4096 2000).1 t hblank hlimit ht
  have hok := (hread 1024).2 ⟨hspells, by decide⟩
  refine ⟨hblank, hlimit, ht, hspells, hok, herror ?_⟩
  rintro ⟨n, hn, hle⟩
  have hn' := (hread n).2 ⟨hn, by omega⟩
  cases hok.symm.trans hn'
  omega

end KeyControl
