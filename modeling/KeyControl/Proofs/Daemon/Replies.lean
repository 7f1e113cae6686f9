import KeyControl.Client.Joined
import KeyControl.Proofs.Daemon.Gate
import KeyControl.Proofs.Wire.Frames
import KeyControl.Proofs.Wire.RoundTrip

/-!
# A daemon that answers

A daemon is sound if its credential store never fails and issues what can be sent, and if whoever
acts on its requests hands over replies: none, one, or a list (`Daemon.Sound`).  A sound daemon
answers every request with replies (`Daemon.Sound.exists_replies`).

`Daemon.dispatchAll` dispatches requests one after another.  The daemon at the other end of a socket
does the same with the frames of these requests: what comes back for the frame of a request is the
stream of the replies to that very request (`Daemon.peer_frame`).
-/

namespace KeyControl

/-! ## Replies -/

/-- A message that a daemon may send: a notice or an acknowledgement. -/
def Message.IsReply (m : Message) : Prop :=
  m.family ≠ .requests

theorem Message.IsReply.mem_readings {m : Message} (h : m.IsReply) : .replies ∈ m.readings := by
  cases m with
  | request r => exact absurd rfl h
  | notice n => exact List.mem_cons_self
  | ack a => exact List.mem_cons_self

/-- What was handed over stands for replies: for none, for one, or for those of a list. -/
inductive Handled.StandsFor : Handled → List Message → Prop where
  | nothing : StandsFor (.returned (.value .null)) []
  | one {m : Message} (hm : m.IsReply) : StandsFor (.returned (.message m)) [m]
  | list {ms : List Message} (hms : ∀ m ∈ ms, m.IsReply) :
    StandsFor (.produced (.ok (ms.map .message))) ms

/-- What stands for replies is made these replies, and nothing else. -/
theorem Handled.StandsFor.conclude_eq {handled : Handled} {ms : List Message}
    (h : handled.StandsFor ms) (p : Parcel) :
    Daemon.conclude p handled = .ok (ms.map .message) ∧ ∀ m ∈ ms, m.IsReply := by
  cases h with
  | nothing => exact ⟨rfl, fun _ hm => absurd hm List.not_mem_nil⟩
  | @one m hm =>
    refine ⟨?_, List.forall_mem_singleton.2 hm⟩
    cases m with
    | request r => exact absurd rfl hm
    | notice n => rfl
    | ack a => rfl
  | list hms => exact ⟨rfl, hms⟩

/-- A store never fails, and a session that it issues is text, with an expiry of up to 64 bits. -/
structure Credentials.Sound {σ : Type} (store : Credentials σ) : Prop where
  authenticate : ∀ token clientName state,
    (store.authenticate token clientName state).1 = .ok none ∨
      ∃ (session : String) (expiry : UInt64), (store.authenticate token clientName state).1 =
        .ok (some (.text (Text.ofString session), .int expiry.toNat))
  check : ∀ session state, ∃ held, (store.check session state).1 = .ok held

theorem Family.Lawful.check_record {F : Family} (hF : F.Lawful) (v : Variant F) :
    F.check v.tag (Record.draft _ v.record) = .ok v := by
  rw [check, Record.check_draft v.record (hF.tells v.tag)]

theorem Notice.granted?_of_text (session : String) (expiry : UInt64) :
    granted? (.text (Text.ofString session)) (.int expiry.toNat) =
      .ok (.authResult true (some session) (some expiry)) := by
  have hcheck : Notices.check .authResult
      (.bool true, .text (Text.ofString session), .int expiry.toNat, ()) =
        .ok (authResult true (some session) (some expiry)).variant :=
    lawful_notices.check_record (authResult true (some session) (some expiry)).variant
  have hnull : (Datum.isNull (.text (Text.ofString session)) ||
      Datum.isNull (.int expiry.toNat)) = false := rfl
  rw [granted?, hnull, if_neg Bool.false_ne_true, hcheck]
  rfl

namespace Daemon

variable {σ : Type}

/-- A daemon whose store and handler do as they should. -/
structure Sound (d : Daemon σ) : Prop where
  store : ∀ store, d.policy.store? = some store → store.Sound
  handler : ∀ handler, d.handler = some handler → ∀ r state,
    ∃ ms, (handler (.message (.request r)) state).1.StandsFor ms

section Sound

variable {d : Daemon σ} (hd : d.Sound)

include hd

/-- An attempt to authenticate is answered with its outcome. -/
theorem Sound.exists_grant (token : String) (clientName : Option String) (desk : Desk σ) :
    ∃ n seen, grant d.policy.store? token clientName desk = (.ok n, seen) := by
  cases hstore : d.policy.store? with
  | none => exact ⟨_, _, rfl⟩
  | some store =>
    rw [grant]
    rcases hissue : store.authenticate token clientName desk.state with ⟨result, state⟩
    have hsound := (hd.store store hstore).authenticate token clientName desk.state
    rw [hissue] at hsound
    rcases hsound with rfl | ⟨session, expiry, rfl⟩
    · exact ⟨_, _, rfl⟩
    · dsimp only
      rw [Notice.granted?_of_text]
      exact ⟨_, _, rfl⟩

/-- The gate refuses a message or lets it pass; it does not fail. -/
theorem Sound.exists_gate (m : Message) (desk : Desk σ) :
    ∃ refusal seen, gate d.policy (.message m) desk = (.ok refusal, seen) := by
  cases hpolicy : d.policy with
  | lenient store => exact ⟨none, desk, rfl⟩
  | strict store =>
    have hstore : store.Sound := hd.store store (by rw [hpolicy, Policy.store?])
    rw [gate]
    dsimp only
    split
    · exact ⟨_, _, rfl⟩
    · next session _ =>
      rcases hcheck : store.check session desk.state with ⟨said, state⟩
      obtain ⟨held, hheld⟩ := hstore.check session desk.state
      rw [hcheck] at hheld
      obtain rfl : said = .ok held := hheld
      cases held <;> exact ⟨_, _, rfl⟩

/-- **A sound daemon answers every request with replies.** -/
theorem Sound.exists_replies (r : Request) (desk : Desk σ) :
    ∃ (ms : List Message) (seen : Desk σ),
      d.dispatch (.message (.request r)) desk = (.ok (ms.map .message), seen) ∧
        ∀ m ∈ ms, m.IsReply := by
  have hnotice : ∀ n : Notice, ∀ m ∈ [Message.notice n], m.IsReply := fun n =>
    List.forall_mem_singleton.2 MessageFamily.noConfusion
  cases hr : r.gated with
  | false =>
    cases r with
    | authenticate token clientName =>
      obtain ⟨n, seen, hgrant⟩ := hd.exists_grant token clientName desk
      refine ⟨[.notice n], seen, ?_, hnotice n⟩
      rw [dispatch, hgrant]
      rfl
    | _ => cases hr
  | true =>
    obtain ⟨refusal, seen, hgate⟩ := hd.exists_gate (.request r) desk
    rw [dispatch_of_gated desk d hr, hgate]
    cases refusal with
    | some n => exact ⟨[.notice n], seen, rfl, hnotice n⟩
    | none =>
      cases hhandler : d.handler with
      | none => exact ⟨[.ack .ok], seen, rfl, List.forall_mem_singleton.2 MessageFamily.noConfusion⟩
      | some handler =>
        obtain ⟨ms, hms⟩ := hd.handler handler hhandler r seen.state
        obtain ⟨hconclude, hreplies⟩ := hms.conclude_eq (.message (.request r))
        have hact : act (some handler) (.message (.request r)) seen =
            (.ok (ms.map .message), ⟨(handler (.message (.request r)) seen.state).2,
              .handle (.message (.request r)) :: seen.journal⟩) := by
          rw [← hconclude]
          rfl
        exact ⟨ms, _, hact, hreplies⟩

end Sound

/-! ## Requests dispatched one after another -/

/-- Dispatch requests one after another: all replies, and the state at the end.  The first failure
is that of the whole. -/
def dispatchAll (d : Daemon σ) : List Parcel → σ → Except Failure (List Parcel) × σ
  | [], state => (.ok [], state)
  | p :: ps, state =>
    match d.dispatch p ⟨state, []⟩ with
    | (.error e, desk) => (.error e, desk.state)
    | (.ok replies, desk) =>
      match dispatchAll d ps desk.state with
      | (.error e, state) => (.error e, state)
      | (.ok rest, state) => (.ok (replies ++ rest), state)

theorem dispatchAll_cons {d : Daemon σ} {p : Parcel} {ps : List Parcel} {state state' : σ}
    {first rest : List Parcel} {desk : Desk σ} (h : d.dispatch p ⟨state, []⟩ = (.ok first, desk))
    (h' : d.dispatchAll ps desk.state = (.ok rest, state')) :
    d.dispatchAll (p :: ps) state = (.ok (first ++ rest), state') := by
  rw [dispatchAll, h]
  dsimp only
  rw [h']

/-- If all requests are answered, so is the first, and the others in the state that it leaves. -/
theorem exists_of_dispatchAll_cons {d : Daemon σ} {p : Parcel} {ps : List Parcel}
    {state state' : σ} {replies : List Parcel}
    (h : d.dispatchAll (p :: ps) state = (.ok replies, state')) :
    ∃ first desk rest, d.dispatch p ⟨state, []⟩ = (.ok first, desk) ∧
      d.dispatchAll ps desk.state = (.ok rest, state') ∧ replies = first ++ rest := by
  rw [dispatchAll] at h
  rcases hp : d.dispatch p ⟨state, []⟩ with ⟨⟨e⟩ | ⟨first⟩, desk⟩
  · rw [hp] at h
    cases h
  · rw [hp] at h
    dsimp only at h
    rcases hps : d.dispatchAll ps desk.state with ⟨⟨e⟩ | ⟨rest⟩, state₁⟩
    · rw [hps] at h
      cases h
    · rw [hps] at h
      cases h
      exact ⟨first, desk, rest, rfl, hps, rfl⟩

theorem eq_nil_of_dispatchAll_nil {d : Daemon σ} {state state' : σ} {ms : List Message}
    (h : d.dispatchAll [] state = (.ok (ms.map .message), state')) : ms = [] ∧ state = state' := by
  rw [dispatchAll, Prod.mk.injEq, Except.ok.injEq, eq_comm, List.map_eq_nil_iff] at h
  exact h

theorem exists_dispatch_of_singleton {d : Daemon σ} {p : Parcel} {state state' : σ}
    {replies : List Parcel} (h : d.dispatchAll [p] state = (.ok replies, state')) :
    ∃ desk, d.dispatch p ⟨state, []⟩ = (.ok replies, desk) ∧ desk.state = state' := by
  obtain ⟨first, desk, rest, hp, hnil, rfl⟩ := exists_of_dispatchAll_cons h
  cases hnil
  exact ⟨desk, by rwa [List.append_nil], rfl⟩

/-- Requests are dispatched as those before them have left the state. -/
theorem dispatchAll_append {d : Daemon σ} {ps qs : List Parcel} {state state' state'' : σ}
    {replies more : List Parcel} (h : d.dispatchAll ps state = (.ok replies, state'))
    (h' : d.dispatchAll qs state' = (.ok more, state'')) :
    d.dispatchAll (ps ++ qs) state = (.ok (replies ++ more), state'') := by
  induction ps generalizing state replies with
  | nil =>
    cases h
    exact h'
  | cons p ps ih =>
    obtain ⟨first, desk, rest, hp, hps, rfl⟩ := exists_of_dispatchAll_cons h
    rw [List.append_assoc]
    exact dispatchAll_cons hp (ih hps)

/-- What holds of every reply to a request holds of all replies to many. -/
theorem forall_mem_of_dispatchAll {d : Daemon σ} {P : Parcel → Prop}
    (h : ∀ r desk replies seen, d.dispatch (.message (.request r)) desk = (.ok replies, seen) →
      ∀ q ∈ replies, P q) {rs : List Request} {state state' : σ} {replies : List Parcel}
    (hall : d.dispatchAll (rs.map fun r => .message (.request r)) state = (.ok replies, state')) :
    ∀ q ∈ replies, P q := by
  induction rs generalizing state replies with
  | nil =>
    cases hall
    exact List.forall_mem_nil _
  | cons r rs ih =>
    rw [List.map_cons] at hall
    obtain ⟨first, desk, rest, hr, hrs, rfl⟩ := exists_of_dispatchAll_cons hall
    exact List.forall_mem_append.2 ⟨h r _ _ _ hr, ih hrs⟩

/-- **A sound daemon answers requests with replies, however many there are.** -/
theorem Sound.exists_dispatchAll_eq {d : Daemon σ} (hd : d.Sound) (rs : List Request) (state : σ) :
    ∃ (ms : List Message) (state' : σ),
      d.dispatchAll (rs.map fun r => .message (.request r)) state =
        (.ok (ms.map .message), state') ∧ ∀ m ∈ ms, m.IsReply := by
  induction rs generalizing state with
  | nil => exact ⟨[], state, rfl, fun _ hm => absurd hm List.not_mem_nil⟩
  | cons r rs ih =>
    obtain ⟨ms, desk, hdispatch, hms⟩ := hd.exists_replies r ⟨state, []⟩
    obtain ⟨more, state', hrest, hmore⟩ := ih desk.state
    refine ⟨ms ++ more, state', ?_, fun m hm => (List.mem_append.1 hm).elim (hms m) (hmore m)⟩
    rw [List.map_append]
    exact dispatchAll_cons hdispatch hrest

/-! ## The other side of a socket -/

theorem havePayloads_messages (ms : List Message) :
    Parcel.HavePayloads (ms.map .message) (ms.map Message.payload) := by
  induction ms with
  | nil => exact .nil
  | cons m ms ih => exact .cons rfl ih

/-- **For the frame of a request, that request is dispatched**, and what comes back is the frames of
the replies, if there are replies and they have frames. -/
theorem peer_request (d : Daemon σ) (r : Request) (state : σ) :
    d.peer ((Message.request r).payload ++ [newline]) state =
      match d.dispatch (.message (.request r)) ⟨state, []⟩ with
      | (.error e, desk) => ⟨.error e, desk.state, desk.journal⟩
      | (.ok replies, desk) =>
        match frameAll replies with
        | .error e => ⟨.error (.unencodable e), desk.state, desk.journal⟩
        | .ok bs => ⟨.ok [.data bs], desk.state, desk.journal⟩ := by
  have hline : IsLine (Message.request r).payload := Json.isLine_encode _
  have hframes : Bytes.frames ((Message.request r).payload ++ [newline]) =
      .ok [(Message.request r).payload] := by
    have hcut := Bytes.frames_joinLines (List.forall_mem_singleton.2 hline)
    rwa [joinLines_cons, joinLines_nil] at hcut
  have hdecode : (Payload.octets (Message.request r).payload).decode .requests =
      .ok (.request r) := Message.decode_payload (List.mem_singleton.2 rfl)
  rw [peer, hframes]
  dsimp only
  rw [answerFrames, handle, hdecode]
  dsimp only
  rcases d.dispatch (.message (.request r)) ⟨state, []⟩ with ⟨⟨e⟩ | ⟨replies⟩, desk⟩
  · rfl
  · dsimp only
    cases frameAll replies with
    | error e => rfl
    | ok bs =>
      rw [answerFrames]
      dsimp only
      rw [List.append_nil]

/-- **For the frame of a request, the stream of the replies to that request comes back.** -/
theorem peer_frame {d : Daemon σ} {r : Request} {state : σ} {ms : List Message} {desk : Desk σ}
    (h : d.dispatch (.message (.request r)) ⟨state, []⟩ = (.ok (ms.map .message), desk)) :
    d.peer ((Message.request r).payload ++ [newline]) state =
      ⟨.ok [.data (joinLines (ms.map Message.payload))], desk.state, desk.journal⟩ := by
  rw [peer_request, h]
  dsimp only
  rw [Parcel.frameAll_of_havePayloads (havePayloads_messages ms)]

end Daemon

end KeyControl
