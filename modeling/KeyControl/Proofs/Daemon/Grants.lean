import KeyControl.Proofs.Daemon.Replies
import KeyControl.Proofs.Message.Documents
import KeyControl.Proofs.Message.Schema

/-!
# What comes of an attempt to authenticate

A notice about an attempt to authenticate may hold any truth value, with or without a session and
with or without an expiry.  Those that a daemon sends keep to a convention: success goes with both,
and failure with neither.  It rests on three places.  A grant needs a session that is text without
surrogates and an expiry of up to 64 bits, and carries exactly these (`Notice.granted?_eq_ok_iff`);
a denial carries neither; and a daemon denies what its credential store rejects, grants what the
store issues, and fails where it cannot (`Daemon.fst_grant_eq_ok_iff`).

`Daemon.dispatch_authenticate` says so of every daemon and every store, whatever the store hands
over.
-/

namespace KeyControl

/-! ## What can be granted -/

/-- Whether a value is a natural number below 2 to the power 64. -/
def Datum.IsWord64 (d : Datum) : Prop :=
  ∃ n : Int, d = int n ∧ 0 ≤ n ∧ n ≤ 0xFFFFFFFFFFFFFFFF

theorem Datum.isWord64_iff {d : Datum} : d.IsWord64 ↔ ∃ e : UInt64, d = int e.toNat := by
  constructor
  · rintro ⟨n, rfl, hn, hle⟩
    have hlt : n.toNat < UInt64.size := by
      rw [UInt64.size]
      omega
    refine ⟨UInt64.ofNat n.toNat, ?_⟩
    rw [UInt64.toNat_ofNat_of_lt' hlt, Int.toNat_of_nonneg hn]
  · rintro ⟨e, rfl⟩
    have hlt := e.toNat_lt
    exact ⟨_, rfl, Int.natCast_nonneg _, by omega⟩

theorem Kind.eq_of_check_word64 {d : Datum} {e : UInt64} (h : Kind.check .word64 d = .ok e) :
    d = .int e.toNat :=
  eq_of_checkWord (fun _ hn => UInt64.toNat_ofNat_of_lt' (Nat.lt_succ_of_le hn)) h

theorem Field.exists_of_check_optional {name : String} {k : Kind} {d : Datum}
    {v : Option k.Carrier} (hd : d.isNull = false)
    (h : (Field.optional name k).check d = .ok v) : ∃ w, v = some w ∧ k.check d = .ok w := by
  rw [Field.check, hd, if_neg Bool.false_ne_true] at h
  cases hcheck : k.check d with
  | error fault =>
    rw [hcheck] at h
    cases h
  | ok w =>
    rw [hcheck] at h
    cases h
    exact ⟨w, rfl, rfl⟩

/-- What passes for a variant has its tag, and a record that passes for its fields. -/
theorem Family.exists_record_of_check {F : Family} {tag : F.Tag} {draft : Draft (F.fields tag)}
    {v : Variant F} (h : F.check tag draft = .ok v) :
    ∃ record, v = ⟨tag, record⟩ ∧ Record.check (F.fields tag) draft = .ok record := by
  rw [check] at h
  split at h
  · next record hrecord =>
    cases h
    exact ⟨record, rfl, hrecord⟩
  · cases h

namespace Notice

/-- **A grant is built exactly of text without surrogates and a natural number below 2 to the power
64**, and carries both. -/
theorem granted?_eq_ok_iff {session expiry : Datum} {n : Notice} :
    granted? session expiry = .ok n ↔
      ∃ (s : String) (e : UInt64), session = .ofString s ∧ expiry = .int e.toNat ∧
        n = .authResult true (some s) (some e) := by
  constructor
  · intro h
    rw [granted?] at h
    split at h
    · cases h
    · next hnull =>
      rw [Bool.not_eq_true, Bool.or_eq_false_iff] at hnull
      split at h
      · next v hv =>
        cases h
        obtain ⟨⟨success, s?, e?, ⟨⟩⟩, rfl, hrecord⟩ := Family.exists_record_of_check hv
        obtain ⟨hsuccess, hrest⟩ := Record.check_cons_iff.1 hrecord
        obtain ⟨hsession, hrest⟩ := Record.check_cons_iff.1 hrest
        obtain ⟨hexpiry, -⟩ := Record.check_cons_iff.1 hrest
        cases hsuccess
        obtain ⟨s, rfl, hs⟩ := Field.exists_of_check_optional hnull.1 hsession
        obtain ⟨e, rfl, he⟩ := Field.exists_of_check_optional hnull.2 hexpiry
        exact ⟨s, e, Kind.checkText_eq_ok_iff.1 hs, Kind.eq_of_check_word64 he, rfl⟩
      · cases h
  · rintro ⟨s, e, rfl, rfl, rfl⟩
    exact granted?_of_text s e

end Notice

/-! ## What a credential store may do -/

namespace Policy

variable {σ : Type}

/-- There is a credential store, and it issues a session with an expiry for a token. -/
def Issues (policy : Policy σ) (token : String) (clientName : Option String) (state : σ)
    (session expiry : Datum) : Prop :=
  ∃ store, policy.store? = some store ∧
    (store.authenticate token clientName state).1 = .ok (some (session, expiry))

/-- There is no credential store, or it rejects a token. -/
def Rejects (policy : Policy σ) (token : String) (clientName : Option String) (state : σ) : Prop :=
  ∀ store, policy.store? = some store → (store.authenticate token clientName state).1 = .ok none

end Policy

/-- A reply has a frame, and a client that is handed the frame reads the reply. -/
theorem Message.IsReply.exists_frameAll {m : Message} (h : m.IsReply) :
    ∃ bs, frameAll [.message m] = .ok bs ∧ (Payload.octets bs).decode .replies = .ok m := by
  obtain ⟨frame, hframe, hread⟩ := m.decode_frame
  refine ⟨frame ++ [], ?_, ?_⟩
  · rw [frameAll, hframe]
    rfl
  · rw [List.append_nil]
    exact hread .replies h.mem_readings

namespace Daemon

variable {σ : Type} {policy : Policy σ} {token : String} {clientName : Option String}
  {desk : Desk σ}

section Store

variable {store : Credentials σ}

theorem fst_grant_of_error {incident : Incident}
    (h : (store.authenticate token clientName desk.state).1 = .error incident) :
    (grant (some store) token clientName desk).1 = .error (.incident incident) := by
  rcases hauth : store.authenticate token clientName desk.state with ⟨result, state⟩
  rw [hauth] at h
  obtain rfl : result = .error incident := h
  rw [grant, hauth]

theorem fst_grant_of_rejected (h : (store.authenticate token clientName desk.state).1 = .ok none) :
    (grant (some store) token clientName desk).1 = .ok .denied := by
  rcases hauth : store.authenticate token clientName desk.state with ⟨result, state⟩
  rw [hauth] at h
  obtain rfl : result = .ok none := h
  rw [grant, hauth]

theorem fst_grant_of_issued {session expiry : Datum}
    (h : (store.authenticate token clientName desk.state).1 = .ok (some (session, expiry))) :
    (grant (some store) token clientName desk).1 =
      (Notice.granted? session expiry).mapError .ofGrantError := by
  rcases hauth : store.authenticate token clientName desk.state with ⟨result, state⟩
  rw [hauth] at h
  obtain rfl : result = .ok (some (session, expiry)) := h
  rw [grant, hauth]
  dsimp only
  cases Notice.granted? session expiry <;> rfl

end Store

/-- **A daemon denies what is rejected and grants what is issued**, and otherwise fails. -/
theorem fst_grant_eq_ok_iff {n : Notice} :
    (grant policy.store? token clientName desk).1 = .ok n ↔
      (n = .denied ∧ policy.Rejects token clientName desk.state) ∨
        ∃ (s : String) (e : UInt64),
          policy.Issues token clientName desk.state (.ofString s) (.int e.toNat) ∧
            n = .authResult true (some s) (some e) := by
  simp only [Policy.Rejects, Policy.Issues]
  cases policy.store? with
  | none => simp [grant, eq_comm]
  | some store =>
    simp only [Option.some.injEq, forall_eq', exists_eq_left']
    rcases hissue : (store.authenticate token clientName desk.state).1 with ⟨incident⟩ | ⟨_ | pair⟩
    · simp [fst_grant_of_error hissue]
    · simp [fst_grant_of_rejected hissue, eq_comm]
    · obtain ⟨session, expiry⟩ := pair
      have hmap : (Notice.granted? session expiry).mapError Failure.ofGrantError = .ok n ↔
          Notice.granted? session expiry = .ok n := by
        cases Notice.granted? session expiry <;> simp [Except.mapError]
      simp [fst_grant_of_issued hissue, hmap, Notice.granted?_eq_ok_iff, and_assoc]

theorem fst_dispatch_authenticate (d : Daemon σ) :
    (d.dispatch (.message (.request (.authenticate token clientName))) desk).1 =
      (grant d.policy.store? token clientName desk).1.map fun n => [.message (.notice n)] := by
  rw [dispatch]
  rcases grant d.policy.store? token clientName desk with ⟨⟨e⟩ | ⟨n⟩, seen⟩ <;> rfl

theorem exists_fst_dispatch_authenticate_eq (d : Daemon σ) :
    let answer := (d.dispatch (.message (.request (.authenticate token clientName))) desk).1
    (∃ e, answer = .error e) ∨ ∃ n, answer = .ok [.message (.notice n)] := by
  intro answer
  have hanswer : answer = (grant d.policy.store? token clientName desk).1.map fun n =>
      [.message (.notice n)] := d.fst_dispatch_authenticate
  cases hgrant : (grant d.policy.store? token clientName desk).1 with
  | error e => exact .inl ⟨e, by rw [hanswer, hgrant, Except.map]⟩
  | ok n => exact .inr ⟨n, by rw [hanswer, hgrant, Except.map]⟩

/-- The reply to an attempt is a denial or a grant, as the credential store has it. -/
theorem fst_dispatch_authenticate_eq_ok_iff (d : Daemon σ) {n : Notice} :
    (d.dispatch (.message (.request (.authenticate token clientName))) desk).1 =
        .ok [.message (.notice n)] ↔
      (n = .denied ∧ d.policy.Rejects token clientName desk.state) ∨
        ∃ (s : String) (e : UInt64),
          d.policy.Issues token clientName desk.state (.ofString s) (.int e.toNat) ∧
            n = .authResult true (some s) (some e) := by
  rw [← fst_grant_eq_ok_iff, fst_dispatch_authenticate]
  cases (grant d.policy.store? token clientName desk).1 <;> simp [Except.map]

/-- **Success goes with a session and an expiry, failure with neither.**  Whatever a daemon has for a
policy, and whatever its credential store does about an attempt to authenticate, the attempt fails
or has one reply: a notice of its outcome that keeps to this, has a frame, and is read back by the
client.  It is the denial exactly if there is no store or the store rejects the token.  It tells of
success exactly if the store issues text without surrogates and a natural number below 2 to the
power 64, and then it carries exactly these. -/
theorem dispatch_authenticate (d : Daemon σ) (token : String) (clientName : Option String)
    (desk : Desk σ) :
    let answer := (d.dispatch (.message (.request (.authenticate token clientName))) desk).1
    let issues := d.policy.Issues token clientName desk.state
    ((∃ e, answer = .error e) ∨
      ∃ success session expiry bs,
        let reply := Message.notice (.authResult success session expiry)
        answer = .ok [.message reply] ∧
          (success = true ↔ session.isSome = true) ∧ (success = true ↔ expiry.isSome = true) ∧
          frameAll [.message reply] = .ok bs ∧ (Payload.octets bs).decode .replies = .ok reply) ∧
    (answer = .ok [.message (.notice .denied)] ↔
      d.policy.Rejects token clientName desk.state) ∧
    ((∃ session expiry, answer = .ok [.message (.notice (.authResult true session expiry))]) ↔
      ∃ session expiry, issues session expiry ∧ session.Plain ∧ expiry.IsWord64) ∧
    ∀ s e, answer = .ok [.message (.notice (.authResult true (some s) (some e)))] ↔
      issues (.ofString s) (.int e.toNat) := by
  intro answer issues
  have hanswer : ∀ n, answer = .ok [.message (.notice n)] ↔
      (n = .denied ∧ d.policy.Rejects token clientName desk.state) ∨
        ∃ (s : String) (e : UInt64), issues (.ofString s) (.int e.toNat) ∧
          n = .authResult true (some s) (some e) := fun n =>
    fst_dispatch_authenticate_eq_ok_iff d
  have hgranted : ∀ s e, answer = .ok [.message (.notice (.authResult true (some s) (some e)))] ↔
      issues (.ofString s) (.int e.toNat) := by
    intro s e
    rw [hanswer]
    simp [Notice.denied]
  refine ⟨?_, ?_, ⟨?_, ?_⟩, hgranted⟩
  · rcases d.exists_fst_dispatch_authenticate_eq with hfailed | ⟨n, hreply⟩
    · exact .inl hfailed
    · have hisReply : (Message.notice n).IsReply := MessageFamily.noConfusion
      obtain ⟨bs, hbs, hread⟩ := hisReply.exists_frameAll
      rcases (hanswer n).1 hreply with ⟨rfl, -⟩ | ⟨s, e, -, rfl⟩
      · exact .inr ⟨false, none, none, bs, hreply, by decide, by decide, hbs, hread⟩
      · exact .inr ⟨true, some s, some e, bs, hreply, by simp, by simp, hbs, hread⟩
  · rw [hanswer]
    simp [Notice.denied]
  · rintro ⟨session, expiry, h⟩
    rcases (hanswer _).1 h with ⟨hdenied, -⟩ | ⟨s, e, hissues, -⟩
    · cases hdenied
    · exact ⟨_, _, hissues, Datum.plain_iff.2 ⟨s, rfl⟩, Datum.isWord64_iff.2 ⟨e, rfl⟩⟩
  · rintro ⟨session, expiry, hissues, hsession, hexpiry⟩
    obtain ⟨s, rfl⟩ := Datum.plain_iff.1 hsession
    obtain ⟨e, rfl⟩ := Datum.isWord64_iff.1 hexpiry
    exact ⟨some s, some e, (hgranted s e).2 hissues⟩

/-- The empty session is granted, even if it expires at once; an expiry that is a truth value makes
the attempt fail. -/
example :
    let answer (expiry : Datum) := (dispatch ⟨.strict Ledger.credentials, none⟩
      (.message (.request (.authenticate "t" none)))
      ⟨⟨[("t", .grants (.text []) expiry)], [], 0⟩, []⟩).1
    answer (.int 0) = .ok [.message (.notice (.authResult true (some "") (some 0)))] ∧
      answer (.bool true) =
        .error (.misbuilt (.invalid ⟨"AuthResult", "expires_in_seconds",
          .mismatch .word64 "bool"⟩)) :=
  ⟨rfl, rfl⟩

end Daemon

end KeyControl
