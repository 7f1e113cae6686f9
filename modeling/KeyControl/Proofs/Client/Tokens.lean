import KeyControl.Proofs.Client.Joined
import KeyControl.Proofs.Link.Standing

/-!
# Tokens are opaque from end to end

A token is any string: it may be empty, and hold quotes, line feeds and whatever else.  On its way
it is put into a message, written as JSON, framed, cut out again, read and checked, three times over
and in both directions, and nobody on the way looks into it.

A client joined to a strict daemon offers the store its token and its name, unchanged, and comes to
hold the session that the store issues, unchanged (`Client.authenticate_of_issued`).  A transition
that neither refuses nor grants leaves the client as it is (`Client.finish_eq_of_not`), and as long
as it holds the session, every request that carries no token makes the store check that very session
(`Client.asked_request_of_session`).  Once there is a session, it does not matter what the handler
does or how much is left unread, for the link stands throughout (`Client.keeps_stands`).
`Client.session_opaque` puts the three together.
-/

namespace KeyControl

/-- An exchange keeps a property of its state. -/
structure Exchange.Keeps {τ : Type} (x : Exchange τ) (P : τ → Prop) : Prop where
  send : ∀ p t, P t → P (x.send p t).2
  recv : ∀ wait t, P t → P (x.recv wait t).2

namespace Client

/-! ## What a run keeps -/

section Runs

variable {τ : Type} {x : Exchange τ}

/-- What an exchange keeps is kept by asking. -/
theorem Asked.keeps {P : τ → Prop} (hx : x.Keeps P) {p : Parcel}
    {conclude : Message → Except Failure Message × Client} {c : Client} {t : τ}
    {outcome : Except Failure Message × Client × τ} {traffic : List Traffic}
    (h : Asked x p conclude c t outcome traffic) (ht : P t) : P outcome.2.2 := by
  have hsent := hx.send p t ht
  have hreceived := hx.recv patience
  cases h with
  | unsent hsend =>
    rw [hsend] at hsent
    exact hsent
  | unanswered hsend hrecv | answered hsend hrecv =>
    rw [hsend] at hsent
    replace hreceived := hreceived _ hsent
    rw [hrecv] at hreceived
    exact hreceived

theorem Operation.keeps_run {P : τ → Prop} (hx : x.Keeps P) (op : Operation) (c : Client) {t : τ}
    (ht : P t) : P (op.run x c t).2.2 := by
  cases op with
  | authenticate token =>
    cases hr : greeting token c.name with
    | error e =>
      rw [(authenticate_of_greeting_error x hr t).1]
      exact ht
    | ok r => exact (asked_authenticate x hr t).keeps hx ht
  | request p => exact (asked_request x p c t).keeps hx ht
  | recv wait => exact hx.recv wait t ht

/-- **What an exchange keeps is kept by every run.** -/
theorem keeps_finish {P : τ → Prop} (hx : x.Keeps P) (ops : List Operation) (c : Client) {t : τ}
    (ht : P t) : P (finish x ops c t).2 := by
  induction ops generalizing c t with
  | nil => exact ht
  | cons op ops ih => exact ih _ (op.keeps_run hx c ht)

theorem Asked.client_eq_or {p : Parcel} {conclude : Message → Except Failure Message × Client}
    {c : Client} {t : τ} {outcome : Except Failure Message × Client × τ} {traffic : List Traffic}
    (h : Asked x p conclude c t outcome traffic) :
    outcome.2.1 = c ∨ ∃ reply, .received patience (.ok reply) ∈ traffic ∧
      outcome.1 = (conclude reply).1 ∧ outcome.2.1 = (conclude reply).2 := by
  cases h with
  | unsent hsend => exact .inl rfl
  | unanswered hsend hrecv => exact .inl rfl
  | @answered reply _ _ hsend hrecv =>
    exact .inr ⟨reply, List.mem_cons_of_mem _ List.mem_cons_self, rfl, rfl⟩

/-- **An operation leaves the client as it is, grants it a session, or takes its session away.** -/
theorem Operation.client_eq_or (op : Operation) (c : Client) (t : τ) :
    (op.run x c t).2.1 = c ∨
      (∃ session expiry, (op.transition x c t).Grants session expiry ∧
        (op.run x c t).2.1 = ⟨c.name, some ⟨session, expiry⟩⟩) ∨
      ((op.transition x c t).Refuses ∧ (op.run x c t).2.1 = c.forget) := by
  cases op with
  | authenticate token =>
    cases hr : greeting token c.name with
    | error e =>
      rw [(authenticate_of_greeting_error x hr t).1]
      exact .inl rfl
    | ok r =>
      rcases (asked_authenticate x hr t).client_eq_or with h | ⟨reply, hreply, hresult, hclient⟩
      · exact .inl h
      · rcases learn_cases c reply with ⟨session, expiry, rfl, hlearn⟩ | ⟨-, hlearn⟩
        · rw [hlearn] at hclient
          exact .inr (.inl ⟨session, expiry, ⟨⟨token, rfl⟩, hreply⟩, hclient⟩)
        · rw [hlearn] at hresult hclient
          exact .inr (.inr ⟨⟨reply, hresult⟩, hclient⟩)
  | request p =>
    rcases (asked_request x p c t).client_eq_or with h | ⟨reply, -, hresult, hclient⟩
    · exact .inl h
    · rcases heed_cases c reply with hheed | hheed
      · rw [hheed] at hresult hclient
        exact .inr (.inr ⟨⟨reply, hresult⟩, hclient⟩)
      · rw [hheed] at hclient
        exact .inl hclient
  | recv wait => exact .inl rfl

theorem name_finish (ops : List Operation) (c : Client) (t : τ) :
    (finish x ops c t).1.name = c.name := by
  induction ops generalizing c t with
  | nil => rfl
  | cons op ops ih =>
    rw [finish, ih]
    rcases op.client_eq_or c t with h | ⟨session, expiry, -, h⟩ | ⟨-, h⟩
    · rw [h]
    · rw [h]
    · rw [h, forget]

/-- **A run that neither grants nor refuses a session leaves the client as it is.** -/
theorem finish_eq_of_not {ops : List Operation} {c : Client} {t : τ}
    (h : ∀ step ∈ trace x ops c t, ¬ step.Refuses ∧ ∀ s e, ¬ step.Grants s e) :
    (finish x ops c t).1 = c := by
  induction ops generalizing c t with
  | nil => rfl
  | cons op ops ih =>
    rw [trace, List.forall_mem_cons] at h
    obtain ⟨⟨hrefuses, hgrants⟩, hrest⟩ := h
    have hclient : (op.run x c t).2.1 = c := by
      rcases op.client_eq_or c t with h | ⟨session, expiry, h, -⟩ | ⟨h, -⟩
      · exact h
      · exact absurd h (hgrants session expiry)
      · exact absurd h hrefuses
    rw [finish, ih hrest, hclient]

end Runs

/-! ## Over a link that stands -/

section Joined

variable {σ : Type} {limit : Nat} {l : Link σ} {c : Client}

/-- **A link to a daemon keeps standing**, whatever a client does over it. -/
theorem keeps_stands (d : Daemon σ) (limit : Nat) :
    (Link.exchange d.peer).Keeps (Link.Stands limit) where
  send p _ h := h.send d.answersLines_peer p
  recv wait _ h := h.recv Reading.replies.decoder wait

/-- Asking makes the calls of the credential store that dispatching the request makes. -/
theorem asked_ask (d : Daemon σ) (h : l.Stands limit) (r : Request)
    (conclude : Message → Except Failure Message × Client) :
    (ask (Link.exchange d.peer) (.message (.request r)) conclude c l).2.2.journal.asked =
      l.journal.asked ++
        (d.dispatch (.message (.request r)) ⟨l.peer, []⟩).2.journal.asked := by
  have hsend : ((Link.exchange d.peer).send (.message (.request r)) l).2.journal.asked = _ :=
    congrArg Journal.asked (h.journal_send (p := .message (.request r)) rfl d.peer)
  rw [Journal.asked_append, Journal.asked_cons_of_not rfl, Daemon.calls_peer_request] at hsend
  rw [ask]
  rcases hsent : (Link.exchange d.peer).send (.message (.request r)) l with ⟨⟨e⟩ | ⟨⟩, l'⟩
  · rw [hsent] at hsend
    exact hsend
  · rw [hsent] at hsend
    have hrecv : ((Link.exchange d.peer).recv patience l').2.journal.asked = l'.journal.asked :=
      l'.asked_journal_recv Reading.replies.decoder patience
    dsimp only
    rcases hreceived : (Link.exchange d.peer).recv patience l' with ⟨⟨e⟩ | ⟨reply⟩, l''⟩
    · rw [hreceived] at hrecv
      exact hrecv.trans hsend
    · rw [hreceived] at hrecv
      exact hrecv.trans hsend

variable (store : Credentials σ) (handler : Option (Handler σ))

/-- **A request without a token makes the store check the session that the client holds.** -/
theorem asked_request_of_session (h : l.Stands limit) {session : String}
    (hc : c.session? = some session) {r : Request} (hr : r.gated = true)
    (hs : r.session? = none) :
    (request (Link.exchange (Daemon.peer ⟨.strict store, handler⟩)) (.message (.request r))
      c l).2.2.journal.asked = l.journal.asked ++ [.check session] := by
  have hgated : (r.withSession (some session)).gated = true := by
    rw [Request.gated_withSession, hr]
  have hsession := Request.session?_withSession hr (some session)
  rw [request_eq_ask, stamp_of_session hs hc, asked_ask _ h,
    Daemon.asked_dispatch_of_session store handler _ hgated hsession]
  rfl

/-- A token and a name that are strings make a request to authenticate with these strings. -/
theorem greeting_ofString (token : String) (clientName : Option String) :
    greeting (Datum.ofString token) (clientName.elim .null Datum.ofString) =
      .ok (.authenticate token clientName) := by
  have hcheck : Requests.check .authenticate
      (Datum.ofString token, clientName.elim .null Datum.ofString, ()) =
        .ok (Request.authenticate token clientName).variant := by
    have hrecord := lawful_requests.check_record (Request.authenticate token clientName).variant
    cases clientName with
    | none => exact hrecord
    | some name => exact hrecord
  rw [greeting, hcheck]
  rfl

/-- **An attempt to authenticate offers the store the token and the name, and leaves the client with
the session that the store issues**, if nothing is unread that could be taken for the answer. -/
theorem authenticate_of_issued (h : l.Stands limit) (hunread : l.unread = [])
    (hreader : l.reader.failed = false) {token session : String} {clientName : Option String}
    {expiry : UInt64} {issued : σ} (hname : c.name = clientName.elim .null Datum.ofString)
    (hissued : store.authenticate token clientName l.peer =
      (.ok (some (.text (Text.ofString session), .int expiry.toNat)), issued))
    (hfits : tooLong limit
      (Message.notice (.authResult true (some session) (some expiry))).payload = false) :
    let x := Link.exchange (Daemon.peer ⟨.strict store, handler⟩)
    ∃ l', authenticate x (Datum.ofString token) c l =
        (.ok (.notice (.authResult true (some session) (some expiry))),
          ⟨c.name, some ⟨session, some expiry⟩⟩, l') ∧
      l'.journal.asked = l.journal.asked ++ [.authenticate token clientName] := by
  intro x
  have hgreeting : greeting (Datum.ofString token) c.name =
      .ok (.authenticate token clientName) := by
    rw [hname]
    exact greeting_ofString token clientName
  have hdispatch := Daemon.dispatch_of_issued store handler ⟨l.peer, []⟩ hissued
  have hasked := asked_ask (c := c) ⟨.strict store, handler⟩ h (.authenticate token clientName)
    c.learn
  rw [hdispatch] at hasked
  rw [authenticate_eq_ask x hgreeting]
  -- The answer is the only line that is unread when the client receives.
  have hanswer := @Daemon.peer_frame σ ⟨.strict store, handler⟩ _ _
    [.notice (.authResult true (some session) (some expiry))] _ hdispatch
  obtain ⟨l', hsend, -, hcarries⟩ := (h.carries hunread hreader).send
    (p := .message (.request (.authenticate token clientName))) rfl hanswer
    (List.forall_mem_singleton.2 hfits) (List.forall_mem_singleton.2 List.mem_cons_self)
  rcases hcarries.recv patience with ⟨m, rest, stream, hrest, hrecv, -⟩ | ⟨stream, hrest, -⟩
  · cases hrest
    have hsent : x.send (.message (.request (.authenticate token clientName))) l = (.ok (), l') :=
      hsend
    have hreceived : x.recv patience l' = (.ok (.notice (.authResult true (some session)
        (some expiry))), (l'.recv Reading.replies.decoder patience).2) := Prod.ext hrecv rfl
    rw [ask, hsent] at hasked ⊢
    dsimp only at hasked ⊢
    rw [hreceived] at hasked ⊢
    exact ⟨_, rfl, hasked⟩
  · cases hrest

/-- **Tokens are opaque from end to end.**  Take a client that is joined to a strict daemon by a
link, with any store, any handler and any operations so far, after which nothing is unread and no
line was too long.  When the client authenticates with a token, the store is offered that very token
and the name of the client, and nothing else is asked of it.  If the store issues a session with its
expiry, and the answer keeps within the limit for lines, the client is told of the grant and holds
that very session and expiry.  From then on, whatever the client does, as long as it has neither
been granted another session nor been refused, it holds the session; and any request with a place
for a token and none in it makes the store check that very session, once, and nothing else is
asked. -/
theorem session_opaque {size : Nat} (hsize : 1 ≤ size) (limit : Nat) (fault : Option Text)
    (state : σ) (clientName : Option String) (earlier : List Operation)
    (hstart : finish (Link.exchange (Daemon.peer ⟨.strict store, handler⟩)) earlier
      (new (clientName.elim .null Datum.ofString))
      (Link.new (some ⟨[], [], fault⟩) size limit state) = (c, l))
    (hunread : l.unread = []) (hreader : l.reader.failed = false) (token session : String)
    (expiry : UInt64) {issued : σ}
    (hissued : store.authenticate token clientName l.peer =
      (.ok (some (.text (Text.ofString session), .int expiry.toNat)), issued))
    (hfits : tooLong limit
      (Message.notice (.authResult true (some session) (some expiry))).payload = false) :
    let x := Link.exchange (Daemon.peer ⟨.strict store, handler⟩)
    let granted := authenticate x (Datum.ofString token) c l
    granted.2.2.journal.asked = l.journal.asked ++ [.authenticate token clientName] ∧
      granted.1 = .ok (.notice (.authResult true (some session) (some expiry))) ∧
      granted.2.1.session? = some session ∧ granted.2.1.expiry? = some expiry ∧
      ∀ between : List Operation,
        (∀ step ∈ trace x between granted.2.1 granted.2.2,
          ¬ step.Refuses ∧ ∀ s e, ¬ step.Grants s e) →
        let later := finish x between granted.2.1 granted.2.2
        later.1.session? = some session ∧ later.1.expiry? = some expiry ∧
          ∀ r : Request, r.gated = true → r.session? = none →
            (request x (.message (.request r)) later.1 later.2).2.2.journal.asked =
              later.2.journal.asked ++ [.check session] := by
  intro x granted
  have hkeeps : x.Keeps (Link.Stands limit) := keeps_stands ⟨.strict store, handler⟩ limit
  have hstands : l.Stands limit := by
    have hfinish := keeps_finish hkeeps earlier (new (clientName.elim .null Datum.ofString))
      (Link.stands_new limit hsize fault state)
    rwa [hstart] at hfinish
  have hname : c.name = clientName.elim .null Datum.ofString := by
    have hfinish := name_finish (x := x) earlier (new (clientName.elim .null Datum.ofString))
      (Link.new (some ⟨[], [], fault⟩) size limit state)
    rwa [hstart] at hfinish
  obtain ⟨l', hgranted, hasked⟩ :=
    authenticate_of_issued store handler hstands hunread hreader hname hissued hfits
  have hstands' : Link.Stands limit granted.2.2 :=
    (Operation.authenticate (Datum.ofString token)).keeps_run hkeeps c hstands
  replace hgranted : granted = _ := hgranted
  rw [hgranted] at hstands' ⊢
  refine ⟨hasked, rfl, rfl, rfl, fun between hbetween => ?_⟩
  intro later
  have hclient : later.1 = ⟨c.name, some ⟨session, some expiry⟩⟩ := finish_eq_of_not hbetween
  have hlater : Link.Stands limit later.2 := keeps_finish hkeeps between _ hstands'
  rw [hclient]
  exact ⟨rfl, rfl, fun r hr hs =>
    asked_request_of_session store handler hlater (c := ⟨c.name, some ⟨session, some expiry⟩⟩) rfl
      hr hs⟩

end Joined

/-- A store that issues one session to everybody, and knows no other. -/
def issuing (session : String) (expiry : UInt64) : Credentials Unit where
  authenticate _ _ state :=
    (.ok (some (.text (Text.ofString session), .int expiry.toNat)), state)
  check s state := (.ok (if s = session then .valid else .unknown), state)

/-- With the empty token a client is granted a session that holds a quote, a line feed and other
characters that have to be escaped, with the greatest expiry, in a line of up to 128 octets.  An
attempt to authenticate without a token fails before anything is sent, and the next request has the
session checked. -/
theorem session_opaque_awkward :
    let session := "\"\n\x00\\é"
    let x := Link.exchange (Daemon.peer ⟨.strict (issuing session 0xFFFFFFFFFFFFFFFF), none⟩)
    let link : Link Unit := Link.new (some ⟨[], [], none⟩) (5 : Nat) (128 : Nat) ()
    let granted := authenticate x (Datum.ofString "") (new .null) link
    let later := finish x [.authenticate .null] granted.2.1 granted.2.2
    granted.2.2.journal.asked = [.authenticate "" none] ∧
      granted.2.1.session? = some session ∧
      granted.2.1.expiry? = some 0xFFFFFFFFFFFFFFFF ∧
      (request x (.message (.request (.reload none))) later.1 later.2).2.2.journal.asked =
        [.authenticate "" none, .check session] := by
  intro session
  have hfits : tooLong 128
      (Message.notice (.authResult true (some session) (some 0xFFFFFFFFFFFFFFFF))).payload =
        false := by
    decide +kernel
  obtain ⟨hasked, -, hsession, hexpiry, hlater⟩ :=
    session_opaque (c := new .null) (issuing session 0xFFFFFFFFFFFFFFFF) none (by decide : 1 ≤ 5)
      128 none () none [] rfl rfl rfl "" session 0xFFFFFFFFFFFFFFFF rfl hfits
  dsimp only at hlater ⊢
  -- From here on, the exchange and what the grant has left behind may be anything.
  generalize authenticate _ _ _ _ = granted at hasked hsession hexpiry hlater ⊢
  generalize Link.exchange _ = x at hlater ⊢
  obtain ⟨e, hgreeting⟩ : ∃ e, ∀ name, greeting .null name = .error e := ⟨_, fun _ => rfl⟩
  obtain ⟨hrun, htraffic⟩ := Operation.authenticate_of_greeting_error x
    (hgreeting granted.2.1.name) granted.2.2
  have hquiet : ∀ step ∈ trace x [.authenticate .null] granted.2.1 granted.2.2,
      ¬ step.Refuses ∧ ∀ s e, ¬ step.Grants s e := by
    refine List.forall_mem_singleton.2 ⟨?_, ?_⟩
    · exact Transition.not_refuses_of_result (congrArg Prod.fst hrun)
        (greeting_ne_refused (hgreeting granted.2.1.name))
    · refine Transition.not_grants_of_traffic fun wait m hm => ?_
      rw [Operation.transition, htraffic] at hm
      exact List.not_mem_nil hm
  have hlast : finish x [.authenticate .null] granted.2.1 granted.2.2 = granted.2 := by
    rw [finish, finish, hrun]
  have hchecked := (hlater [.authenticate .null] hquiet).2.2 (.reload none) rfl rfl
  rw [hlast, hasked] at hchecked
  refine ⟨hasked, hsession, hexpiry, ?_⟩
  rw [hlast]
  exact hchecked

end Client

end KeyControl
