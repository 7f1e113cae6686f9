import KeyControl.Proofs.Client.Session
import KeyControl.Proofs.Daemon.Replies
import KeyControl.Proofs.Link.Carrying

/-!
# What is asked over a link is what is dispatched

A client that is joined to a daemon by a link obtains what it would obtain by handing its requests
over directly.  The state of a run is what the link carries (`Link.Carries`): the replies that the
client has obtained, and the rest, which is unread.  An operation that sends a request adds the
replies to that request to the rest, and an operation that receives takes the first of the rest
(`Client.joined_of_asked`); nothing else happens to them.  By induction over the run, the messages
obtained and those unread are together the replies of `Daemon.dispatchAll` to the requests sent
(`Client.exists_joined`).

`Client.obtained_append_unread` says this of a client and a link that are new, and adds how each
operation can end.
-/

namespace KeyControl

namespace Client

variable {σ : Type}

/-! ## What a client obtains -/

/-- The message that an operation obtained: the one returned, or the one that refused. -/
def obtained? : Except Failure Message → Option Message
  | .ok m => some m
  | .error (.refused m) => some m
  | .error _ => none

theorem obtained?_error {e : Failure} (h : ∀ reply, e ≠ .refused reply) :
    obtained? (.error e) = none := by
  unfold obtained?
  split
  · next he => cases he
  · next reply he => exact absurd (Except.error.inj he) (h reply)
  · rfl

theorem obtained?_learn (c : Client) (reply : Message) :
    obtained? (c.learn reply).1 = some reply := by
  rcases learn_cases c reply with ⟨session, expiry, rfl, hlearn⟩ | ⟨-, hlearn⟩
  · rw [hlearn]
    rfl
  · rw [hlearn]
    rfl

theorem obtained?_heed (c : Client) (reply : Message) :
    obtained? (c.heed reply).1 = some reply := by
  rcases heed_cases c reply with hheed | hheed
  · rw [hheed]
    rfl
  · rw [hheed]
    rfl

/-- How an operation can end, with some lines unread after it. -/
inductive Transition.Settled (unread : List Bytes) (step : Transition) : Prop where
  /-- A message is obtained. -/
  | obtained (m : Message) (h : obtained? step.result = some m)
  /-- Nothing came in time, and nothing is unread. -/
  | timeout (wait : Wait) (h : step.result = .error (.timeout wait)) (hunread : unread = [])
  /-- There is no request to authenticate with the token, so nothing is sent. -/
  | misbuilt (token : Datum) (e : Failure) (hop : step.operation = .authenticate token)
    (hgreeting : greeting token step.before.name = .error e) (h : step.result = .error e)
    (hsent : step.sent = [])

theorem Transition.Settled.of_or {unread : List Bytes} {step : Transition}
    (h : (∃ m, obtained? step.result = some m) ∨
      ∃ wait, step.result = .error (.timeout wait) ∧ unread = []) : step.Settled unread := by
  rcases h with ⟨m, hm⟩ | ⟨wait, hwait, hunread⟩
  · exact .obtained m hm
  · exact .timeout wait hwait hunread

/-! ## One operation -/

theorem exists_stamp_eq (c : Client) (r : Request) :
    ∃ q, c.stamp (.message (.request r)) = .message (.request q) := by
  by_cases hr : r.session? = none
  · cases hc : c.session? with
    | none => exact ⟨r, stamp_eq_self (.inr (.inr hc))⟩
    | some session => exact ⟨_, stamp_of_session hr hc⟩
  · exact ⟨r, stamp_eq_self (.inl (Option.isSome_iff_ne_none.2 hr))⟩

/-- What operations are told to send are requests. -/
def Operation.Proper (op : Operation) : Prop :=
  ∀ p, op = .request p → ∃ r, p = .message (.request r)

/-- What is sent is a list of requests. -/
theorem Operation.Proper.exists_sent_eq {op : Operation} (hop : op.Proper)
    (x : Exchange τ) (c : Client) (t : τ) :
    ∃ rs : List Request, (op.transition x c t).sent = rs.map fun r => .message (.request r) := by
  cases op with
  | authenticate token =>
    cases hr : greeting token c.name with
    | error e =>
      refine ⟨[], ?_⟩
      rw [Transition.sent, Operation.transition, (authenticate_of_greeting_error x hr t).2]
      rfl
    | ok r => exact ⟨[r], (asked_authenticate x hr t).filterMap_sent?⟩
  | request p =>
    obtain ⟨r, rfl⟩ := hop p rfl
    obtain ⟨q, hq⟩ := exists_stamp_eq c r
    refine ⟨[q], ?_⟩
    rw [sent_request, hq]
    rfl
  | recv wait => exact ⟨[], rfl⟩

section Operations

variable {d : Daemon σ} {limit : Nat} {stream : Bytes} {done rest : List Message} {l : Link σ}
  {ms : List Message}

/-- What the link carries after some messages have been obtained, and others have been added. -/
def Joined (limit : Nat) (done rest obtained ms : List Message) (l : Link σ) : Prop :=
  ∃ stream rest', l.Carries limit stream (done ++ obtained) rest' ∧ obtained ++ rest' = rest ++ ms

theorem joined_self (h : l.Carries limit stream done rest) : Joined limit done rest [] [] l :=
  ⟨stream, rest, (List.append_nil done).symm ▸ h, (List.append_nil rest).symm⟩

/-- **Asking adds the replies to the request, and takes the first of the rest.** -/
theorem joined_of_asked {c : Client} {r : Request} {state : σ}
    {conclude : Message → Except Failure Message × Client}
    {outcome : Except Failure Message × Client × Link σ} {traffic : List Traffic}
    (hasked : Asked (Link.exchange d.peer) (.message (.request r)) conclude c l outcome traffic)
    (hconclude : ∀ reply, obtained? (conclude reply).1 = some reply)
    (h : l.Carries limit stream done rest)
    (hdispatch : d.dispatchAll (traffic.filterMap Traffic.sent?) l.peer =
      (.ok (ms.map .message), state))
    (hreplies : ∀ m ∈ ms, m.IsReply) (hfits : ∀ m ∈ ms, tooLong limit m.payload = false) :
    outcome.2.2.peer = state ∧
      Joined limit done rest (obtained? outcome.1).toList ms outcome.2.2 ∧
      ((∃ m, obtained? outcome.1 = some m) ∨
        ∃ wait, outcome.1 = .error (.timeout wait) ∧ outcome.2.2.unread = []) := by
  rw [hasked.filterMap_sent?] at hdispatch
  obtain ⟨desk, hdesk, rfl⟩ := Daemon.exists_dispatch_of_singleton hdispatch
  obtain ⟨l', hsend', hpeer', hcarries'⟩ := h.send (p := .message (.request r)) rfl
    (Daemon.peer_frame hdesk) hfits fun m hm => (hreplies m hm).mem_readings
  have hpeer := Link.peer_recv l' Reading.replies.decoder patience
  have hrecv' := hcarries'.recv patience
  cases hasked with
  | unsent hsend =>
    cases hsend'.symm.trans hsend
  | unanswered hsend hrecv =>
    cases hsend'.symm.trans hsend
    replace hrecv : l'.recv Reading.replies.decoder patience = _ := hrecv
    rw [hrecv] at hrecv' hpeer
    rcases hrecv' with ⟨m, rest', stream', -, hok, -⟩ | ⟨stream', hrest, herror, hcarries⟩
    · cases hok
    · cases herror
      refine ⟨hpeer.trans hpeer', ⟨stream', [], ?_, hrest.symm⟩, .inr ⟨_, rfl, ?_⟩⟩
      · rw [show obtained? (.error (.timeout patience)) = none from rfl, Option.toList_none,
          List.append_nil]
        exact hcarries
      · exact hcarries.unread_eq
  | @answered reply _ _ hsend hrecv =>
    cases hsend'.symm.trans hsend
    replace hrecv : l'.recv Reading.replies.decoder patience = _ := hrecv
    rw [hrecv] at hrecv' hpeer
    rcases hrecv' with ⟨m, rest', stream', hrest, hok, hcarries⟩ | ⟨stream', -, herror, -⟩
    · cases hok
      dsimp only
      rw [hconclude]
      exact ⟨hpeer.trans hpeer', ⟨stream', rest', hcarries, hrest.symm⟩, .inl ⟨reply, rfl⟩⟩
    · cases herror

/-- A wait takes the first of the rest. -/
theorem joined_of_recv (h : l.Carries limit stream done rest) (wait : Wait) :
    let outcome := l.recv Reading.replies.decoder wait
    Joined limit done rest (obtained? outcome.1).toList [] outcome.2 ∧
      ((∃ m, obtained? outcome.1 = some m) ∨
        ∃ wait, outcome.1 = .error (.timeout wait) ∧ outcome.2.unread = []) := by
  intro outcome
  rcases h.recv wait with ⟨m, rest', stream', rfl, hok, hcarries⟩ | ⟨stream', rfl, herror, hcarries⟩
  · have hm : obtained? outcome.1 = some m := congrArg obtained? hok
    rw [hm]
    exact ⟨⟨stream', rest', hcarries, (List.append_nil _).symm⟩, .inl ⟨m, rfl⟩⟩
  · have hnone : obtained? outcome.1 = none := congrArg obtained? herror
    rw [hnone]
    exact ⟨joined_self hcarries, .inr ⟨wait, herror, hcarries.unread_eq⟩⟩

/-- **An operation does to the replies what it should, and ends as it should.** -/
theorem joined_transition {op : Operation} (hop : op.Proper) {c : Client} {state : σ}
    (h : l.Carries limit stream done rest)
    (hdispatch : d.dispatchAll (op.transition (Link.exchange d.peer) c l).sent l.peer =
      (.ok (ms.map .message), state))
    (hreplies : ∀ m ∈ ms, m.IsReply) (hfits : ∀ m ∈ ms, tooLong limit m.payload = false) :
    let outcome := op.run (Link.exchange d.peer) c l
    outcome.2.2.peer = state ∧ Joined limit done rest (obtained? outcome.1).toList ms outcome.2.2 ∧
      (op.transition (Link.exchange d.peer) c l).Settled outcome.2.2.unread := by
  intro outcome
  cases op with
  | authenticate token =>
    cases hr : greeting token c.name with
    | error e =>
      obtain ⟨hrun, htraffic⟩ :=
        Operation.authenticate_of_greeting_error (Link.exchange d.peer) hr l
      have hsent : ((Operation.authenticate token).transition (Link.exchange d.peer) c l).sent =
          [] := by
        rw [Transition.sent, Operation.transition, htraffic]
        rfl
      rw [hsent] at hdispatch
      obtain ⟨rfl, rfl⟩ := Daemon.eq_nil_of_dispatchAll_nil hdispatch
      have houtcome : outcome = (.error e, c, l) := hrun
      rw [houtcome, obtained?_error (greeting_ne_refused hr)]
      exact ⟨rfl, joined_self h, .misbuilt token e rfl hr (congrArg Prod.fst hrun) hsent⟩
    | ok r =>
      obtain ⟨hpeer, hjoined, hends⟩ :=
        joined_of_asked (Operation.asked_authenticate (Link.exchange d.peer) hr l)
          (obtained?_learn c) h hdispatch hreplies hfits
      exact ⟨hpeer, hjoined, .of_or hends⟩
  | request p =>
    obtain ⟨r, rfl⟩ := hop p rfl
    obtain ⟨q, hq⟩ := exists_stamp_eq c r
    have hasked := Operation.asked_request (Link.exchange d.peer) (.message (.request r)) c l
    rw [hq] at hasked
    obtain ⟨hpeer, hjoined, hends⟩ :=
      joined_of_asked hasked (obtained?_heed c) h hdispatch hreplies hfits
    exact ⟨hpeer, hjoined, .of_or hends⟩
  | recv wait =>
    obtain ⟨rfl, rfl⟩ := Daemon.eq_nil_of_dispatchAll_nil hdispatch
    obtain ⟨hjoined, hends⟩ := joined_of_recv h wait
    exact ⟨Link.peer_recv l Reading.replies.decoder wait, hjoined, .of_or hends⟩

end Operations

/-! ## Runs -/

def sent (x : Exchange τ) (ops : List Operation) (c : Client) (t : τ) : List Parcel :=
  (trace x ops c t).flatMap Transition.sent

def obtained (x : Exchange τ) (ops : List Operation) (c : Client) (t : τ) : List Message :=
  (trace x ops c t).filterMap fun step => obtained? step.result

theorem sent_cons (x : Exchange τ) (op : Operation) (ops : List Operation) (c : Client) (t : τ) :
    sent x (op :: ops) c t =
      (op.transition x c t).sent ++ sent x ops (op.run x c t).2.1 (op.run x c t).2.2 :=
  List.flatMap_cons

theorem obtained_cons (x : Exchange τ) (op : Operation) (ops : List Operation) (c : Client)
    (t : τ) :
    obtained x (op :: ops) c t =
      (obtained? (op.run x c t).1).toList ++
        obtained x ops (op.run x c t).2.1 (op.run x c t).2.2 := by
  have hresult : (op.transition x c t).result = (op.run x c t).1 := rfl
  rw [obtained, trace, List.filterMap_cons, hresult]
  cases obtained? (op.run x c t).1 with
  | none => rfl
  | some m => rfl

theorem exists_sent_eq (x : Exchange τ) {ops : List Operation} (hops : ∀ op ∈ ops, op.Proper)
    (c : Client) (t : τ) :
    ∃ rs : List Request, sent x ops c t = rs.map fun r => .message (.request r) := by
  induction ops generalizing c t with
  | nil => exact ⟨[], rfl⟩
  | cons op ops ih =>
    obtain ⟨hop, hops⟩ := List.forall_mem_cons.1 hops
    obtain ⟨rs, hrs⟩ := hop.exists_sent_eq x c t
    obtain ⟨more, hmore⟩ := ih hops (op.run x c t).2.1 (op.run x c t).2.2
    refine ⟨rs ++ more, ?_⟩
    rw [sent_cons, hrs, hmore, List.map_append]

/-- What is obtained and added later comes behind what was obtained and added before. -/
theorem Joined.trans {limit : Nat} {done rest rest' first more ms ns : List Message} {l' : Link σ}
    (heq : first ++ rest' = rest ++ ms) (h' : Joined limit (done ++ first) rest' more ns l') :
    Joined limit done rest (first ++ more) (ms ++ ns) l' := by
  obtain ⟨stream', rest'', hcarries, heq'⟩ := h'
  refine ⟨stream', rest'', ?_, ?_⟩
  · rw [← List.append_assoc]
    exact hcarries
  · rw [List.append_assoc, heq', ← List.append_assoc, heq, List.append_assoc]

section Runs

variable {d : Daemon σ} (hd : d.Sound) {limit : Nat}

include hd

/-- **A whole run.**  What a link carries at the end of a run is what it should carry after the
messages obtained and the replies to the requests sent, and every operation ends as it should. -/
theorem exists_joined {ops : List Operation} (hops : ∀ op ∈ ops, op.Proper) {stream : Bytes}
    {done rest : List Message} {c : Client} {l : Link σ} (h : l.Carries limit stream done rest)
    (hfits : ∀ ms : List Message,
      (d.dispatchAll (sent (Link.exchange d.peer) ops c l) l.peer).1 = .ok (ms.map .message) →
        ∀ m ∈ ms, tooLong limit m.payload = false) :
    let x := Link.exchange d.peer
    let after := (finish x ops c l).2
    ∃ ms : List Message,
      d.dispatchAll (sent x ops c l) l.peer = (.ok (ms.map .message), after.peer) ∧
      Joined limit done rest (obtained x ops c l) ms after ∧
      ∀ earlier op later, ops = earlier ++ op :: later →
        let before := finish x earlier c l
        (op.transition x before.1 before.2).Settled (op.run x before.1 before.2).2.2.unread := by
  intro x
  induction ops generalizing stream done rest c l with
  | nil =>
    refine ⟨[], rfl, joined_self h, fun earlier op later hops => ?_⟩
    exact absurd hops.symm (List.append_ne_nil_of_right_ne_nil earlier (List.cons_ne_nil op later))
  | cons op ops ih =>
    obtain ⟨hop, hops⟩ := List.forall_mem_cons.1 hops
    obtain ⟨rs, hrs⟩ := hop.exists_sent_eq x c l
    obtain ⟨more, hmore⟩ := exists_sent_eq x hops (op.run x c l).2.1 (op.run x c l).2.2
    -- The daemon answers everything, so the replies to the first request are known to fit.
    obtain ⟨ms, state, hms, hreplies⟩ := hd.exists_dispatchAll_eq rs l.peer
    obtain ⟨ns, state', hns, -⟩ := hd.exists_dispatchAll_eq more state
    rw [← hrs] at hms
    rw [← hmore] at hns
    have hall : ∀ {ns : List Message} {state' : σ},
        d.dispatchAll (sent x ops (op.run x c l).2.1 (op.run x c l).2.2) state =
          (.ok (ns.map .message), state') →
        d.dispatchAll (sent x (op :: ops) c l) l.peer = (.ok ((ms ++ ns).map .message), state') := by
      intro ns state' hns
      rw [sent_cons, List.map_append]
      exact Daemon.dispatchAll_append hms hns
    have hfit := hfits (ms ++ ns) (congrArg Prod.fst (hall hns))
    obtain ⟨hpeer, ⟨stream', rest', hcarries, heq⟩, hsettled⟩ :=
      joined_transition hop h hms hreplies fun m hm => hfit m (List.mem_append_left _ hm)
    subst hpeer
    obtain ⟨ns, hns, hjoined, hsettled'⟩ := ih hops hcarries fun ns hns m hm =>
      hfits (ms ++ ns) (congrArg Prod.fst (hall (Prod.ext hns rfl))) m (List.mem_append_right _ hm)
    refine ⟨ms ++ ns, hall hns, ?_, fun earlier op' later hsplit => ?_⟩
    · rw [obtained_cons]
      exact .trans heq hjoined
    · cases earlier with
      | nil =>
        cases hsplit
        exact hsettled
      | cons first earlier =>
        cases hsplit
        exact hsettled' earlier op' later rfl

/-- **What is asked over a link loses, repeats and reorders nothing.**  Take a sound daemon at the
other side of a new link, and a new client that works over it.  After any operations, if all replies
keep within the limit for lines, the messages that the client has obtained and then those that are
unread are exactly the replies that the daemon gives when the requests sent are dispatched one after
another; and the daemon is in the same state.  Every operation obtained a message, or timed out
where nothing was unread, or was an attempt to authenticate with a token that does not do. -/
theorem obtained_append_unread (name : Datum) {size : Nat} (hsize : 1 ≤ size) (limit : Nat)
    (fault : Option Text) (state : σ) {ops : List Operation} (hops : ∀ op ∈ ops, op.Proper)
    (hfits : ∀ ms : List Message,
      (d.dispatchAll (sent (Link.exchange d.peer) ops (new name)
        (Link.new (some ⟨[], [], fault⟩) size limit state)) state).1 = .ok (ms.map .message) →
          ∀ m ∈ ms, tooLong limit m.payload = false) :
    let x := Link.exchange d.peer
    let link := Link.new (some ⟨[], [], fault⟩) size limit state
    let after := (finish x ops (new name) link).2
    ∃ ms : List Message,
      d.dispatchAll (sent x ops (new name) link) state = (.ok (ms.map .message), after.peer) ∧
      (obtained x ops (new name) link).map .ok ++ after.unread.map Reading.replies.decoder =
        ms.map .ok ∧
      ∀ earlier op later, ops = earlier ++ op :: later →
        let before := finish x earlier (new name) link
        (op.transition x before.1 before.2).Settled (op.run x before.1 before.2).2.2.unread := by
  intro x link after
  obtain ⟨ms, hms, ⟨stream, rest, hcarries, heq⟩, hsettled⟩ :=
    exists_joined hd hops (Link.carries_new limit hsize fault state) hfits
  refine ⟨ms, hms, ?_, hsettled⟩
  rw [hcarries.map_decoder_unread, ← List.map_append]
  exact congrArg (List.map Except.ok) heq

end Runs

end Client

/-- A daemon that grants everybody the same session, and answers every request with a push and an
acknowledgement. -/
def Daemon.generous : Daemon Unit where
  policy := .strict
    { authenticate := fun _ _ state => (.ok (some (.text (Text.ofString "token"), .int 60)), state)
      check := fun _ state => (.ok .valid, state) }
  handler := some fun _ state =>
    (.produced (.ok [.message (.notice (.layerChange "nav")), .message (.ack .ok)]), state)

theorem Daemon.sound_generous : generous.Sound where
  store store hstore := by
    cases hstore
    exact ⟨fun _ _ _ => .inr ⟨"token", 60, rfl⟩, fun _ _ => ⟨.valid, rfl⟩⟩
  handler handler hhandler r state := by
    cases hhandler
    have hreplies : ∀ m ∈ [Message.notice (.layerChange "nav"), .ack .ok], m.IsReply :=
      List.forall_mem_cons.2 ⟨MessageFamily.noConfusion,
        List.forall_mem_singleton.2 MessageFamily.noConfusion⟩
    exact ⟨_, Handled.StandsFor.list hreplies⟩

/-- All that this daemon ever answers with. -/
def Daemon.generousReplies : List Message :=
  [.notice (.authResult true (some "token") (some 60)), .notice .authRequired,
    .notice (.layerChange "nav"), .ack .ok]

theorem Daemon.mem_generousReplies {r : Request} {desk seen : Desk Unit} {replies : List Parcel}
    (h : generous.dispatch (.message (.request r)) desk = (.ok replies, seen)) :
    ∀ q ∈ replies, ∃ m ∈ generousReplies, q = .message m := by
  cases hr : r.gated with
  | false =>
    cases r with
    | authenticate token clientName =>
      have hgrant : generous.dispatch (.message (.request (.authenticate token clientName))) desk =
          (.ok [.message (.notice (.authResult true (some "token") (some 60)))],
            ⟨(), .authenticate token clientName :: desk.journal⟩) := rfl
      cases hgrant.symm.trans h
      exact List.forall_mem_singleton.2 ⟨_, by decide, rfl⟩
    | _ => cases hr
  | true =>
    rw [dispatch_of_gated desk generous hr] at h
    cases hs : (Parcel.message (.request r)).session? with
    | none =>
      have hgate : gate generous.policy (.message (.request r)) desk =
          (.ok (some .authRequired), desk) := by
        rw [generous, gate]
        dsimp only
        rw [hs]
        rfl
      rw [hgate] at h
      cases h
      exact List.forall_mem_singleton.2 ⟨_, by decide, rfl⟩
    | some s =>
      have hgate : gate generous.policy (.message (.request r)) desk =
          (.ok none, ⟨(), .check s :: desk.journal⟩) := by
        rw [generous, gate]
        dsimp only
        rw [hs]
      rw [hgate] at h
      cases h
      exact List.forall_mem_cons.2 ⟨⟨_, by decide, rfl⟩,
        List.forall_mem_singleton.2 ⟨_, by decide, rfl⟩⟩

theorem Daemon.fits_generousReplies : ∀ m ∈ generousReplies, tooLong 80 m.payload = false := by
  decide +kernel

/-- A client is granted a session, makes a request that is answered with two messages, and waits
twice; the octets arrive five at a time, in lines of up to 80. -/
theorem Client.obtained_append_unread_generous :
    let x := Link.exchange Daemon.generous.peer
    let link : Link Unit := Link.new (some ⟨[], [], none⟩) (5 : Nat) (80 : Nat) ()
    let ops : List Operation :=
      [.authenticate (.text (Text.ofString "secret")),
        .request (.message (.request (.reload none))), .recv .null, .recv .null]
    Daemon.generous.Sound ∧ (∀ op ∈ ops, op.Proper) ∧
      ∃ ms : List Message,
        (Daemon.generous.dispatchAll (sent x ops (new .null) link) ()).1 = .ok (ms.map .message) ∧
        (obtained x ops (new .null) link).map .ok ++
          (finish x ops (new .null) link).2.unread.map Reading.replies.decoder = ms.map .ok := by
  intro x link ops
  have hops : ∀ op ∈ ops, op.Proper := by
    intro op hop p hp
    subst hp
    simp only [ops, List.mem_cons, reduceCtorEq, Operation.request.injEq, List.not_mem_nil, or_false,
      false_or] at hop
    exact ⟨.reload none, hop⟩
  obtain ⟨rs, hrs⟩ := exists_sent_eq x hops (new .null) link
  have hfits : ∀ ms : List Message,
      (Daemon.generous.dispatchAll (sent x ops (new .null) link) ()).1 = .ok (ms.map .message) →
        ∀ m ∈ ms, tooLong 80 m.payload = false := by
    intro ms hms m hm
    rw [hrs] at hms
    obtain ⟨reply, hreply, heq⟩ := Daemon.forall_mem_of_dispatchAll
      (fun _ _ _ _ => Daemon.mem_generousReplies) (Prod.ext hms rfl) (.message m)
      (List.mem_map_of_mem hm)
    cases heq
    exact Daemon.fits_generousReplies m hreply
  obtain ⟨ms, hms, hobtained, -⟩ := obtained_append_unread Daemon.sound_generous .null
    (by decide : 1 ≤ 5) 80 none () hops hfits
  exact ⟨Daemon.sound_generous, hops, ms, congrArg Prod.fst hms, hobtained⟩

end KeyControl
