import KeyControl.Proofs.Client.Runs
import KeyControl.Proofs.Message.Envelope

/-!
# The session that a client holds

Which session a client holds is decided by the run behind it: the latest attempt to authenticate
that was granted a session puts that session in force (`Client.Transition.Grants`), and every
refusal after it takes the session away (`Client.Transition.Refuses`).  `Client.InForce` says so of
a list of transitions, without a look at the client.

A transition keeps the client as it is, grants a session, or refuses one, and does only one of the
three (`Client.Transition.Effect`).  So the session in force is known from one transition to the
next, and by induction over the run the client holds exactly the session in force
(`Client.holds_finish`).  `Client.session_of_run` puts this together with what each transition does
to the client and with the parcel that a request sends.
-/

namespace KeyControl

variable {τ : Type}

/-- An exchange fails for reasons of its own: it never tells that the other side refused. -/
structure Exchange.NeverRefuses (x : Exchange τ) : Prop where
  send : ∀ p t reply, (x.send p t).1 ≠ .error (.refused reply)
  recv : ∀ wait t reply, (x.recv wait t).1 ≠ .error (.refused reply)

namespace Exchange.NeverRefuses

variable {x : Exchange τ} (hx : x.NeverRefuses)

include hx

theorem ne_refused_of_send {p : Parcel} {t t' : τ} {e : Failure}
    (h : x.send p t = (.error e, t')) (reply : Message) : e ≠ .refused reply := by
  rintro rfl
  exact hx.send p t reply (congrArg Prod.fst h)

theorem ne_refused_of_recv {wait : Wait} {t t' : τ} {e : Failure}
    (h : x.recv wait t = (.error e, t')) (reply : Message) : e ≠ .refused reply := by
  rintro rfl
  exact hx.recv wait t reply (congrArg Prod.fst h)

end Exchange.NeverRefuses

namespace Client

/-! ## Grants and refusals -/

namespace Transition

/-- A transition is an attempt to authenticate that was answered with a session. -/
def Grants (step : Transition) (session : String) (expiry : Option UInt64) : Prop :=
  (∃ token, step.operation = .authenticate token) ∧
    .received patience (.ok (.notice (.authResult true (some session) expiry))) ∈ step.traffic

/-- A transition ends with the failure that the other side refused. -/
def Refuses (step : Transition) : Prop :=
  ∃ reply, step.result = .error (.refused reply)

/-- What a transition can do to the session that a client holds. -/
inductive Effect (step : Transition) : Prop where
  | kept (hafter : step.after = step.before) (hrefuses : ¬ step.Refuses)
    (hgrants : ∀ session expiry, ¬ step.Grants session expiry)
  | granted (session : String) (expiry : Option UInt64)
    (hafter : step.after.grant = some ⟨session, expiry⟩) (hresult : ∀ e, step.result ≠ .error e)
    (hgrants : ∀ s e, step.Grants s e ↔ session = s ∧ expiry = e)
  | refused (hafter : step.after.grant = none) (hrefuses : step.Refuses)
    (hgrants : ∀ session expiry, ¬ step.Grants session expiry)

theorem not_grants_of_traffic {step : Transition}
    (h : ∀ wait m, .received wait (.ok m) ∉ step.traffic) (session : String)
    (expiry : Option UInt64) : ¬ step.Grants session expiry :=
  fun hgrants => h _ _ hgrants.2

theorem not_grants_of_operation (step : Transition)
    (h : ∀ token, step.operation ≠ .authenticate token) (session : String)
    (expiry : Option UInt64) : ¬ step.Grants session expiry := by
  rintro ⟨⟨token, htoken⟩, -⟩
  exact h token htoken

theorem not_refuses_of_result {step : Transition} {e : Failure} (h : step.result = .error e)
    (he : ∀ reply, e ≠ .refused reply) : ¬ step.Refuses := by
  rintro ⟨reply, hreply⟩
  rw [h] at hreply
  exact he reply (Except.error.inj hreply)

end Transition

/-! ## What a transition does -/

theorem greeting_ne_refused {token name : Datum} {e : Failure}
    (he : greeting token name = .error e) (reply : Message) : e ≠ .refused reply := by
  rw [greeting] at he
  split at he
  · cases he
  · cases he
    exact Failure.noConfusion

/-- The answer to an attempt to authenticate is a session, which is learnt, or a refusal. -/
theorem learn_cases (c : Client) (reply : Message) :
    (∃ session expiry, reply = .notice (.authResult true (some session) expiry) ∧
      c.learn reply = (.ok reply, ⟨c.name, some ⟨session, expiry⟩⟩)) ∨
    ((∀ session expiry, reply ≠ .notice (.authResult true (some session) expiry)) ∧
      c.learn reply = (.error (.refused reply), c.forget)) := by
  unfold learn
  split
  · next session expiry => exact .inl ⟨session, expiry, rfl, rfl⟩
  · next hreply => exact .inr ⟨hreply, rfl⟩

/-- The answer to a request is a refusal, or the client stays as it is. -/
theorem heed_cases (c : Client) (reply : Message) :
    c.heed reply = (.error (.refused reply), c.forget) ∨ c.heed reply = (.ok reply, c) := by
  rw [heed]
  split
  · exact .inl rfl
  · exact .inr rfl

namespace Transition

variable {x : Exchange τ} (hx : x.NeverRefuses)

include hx

theorem effect_of_asked_learn {p : Parcel} {c : Client} {t : τ} {token : Datum}
    {outcome : Except Failure Message × Client × τ} {traffic : List Traffic}
    (h : Asked x p c.learn c t outcome traffic) :
    Effect ⟨.authenticate token, c, outcome.1, outcome.2.1, traffic⟩ := by
  cases h with
  | unsent hsend =>
    exact .kept rfl (not_refuses_of_result rfl (hx.ne_refused_of_send hsend))
      (not_grants_of_traffic (by simp))
  | unanswered hsend hrecv =>
    exact .kept rfl (not_refuses_of_result rfl (hx.ne_refused_of_recv hrecv))
      (not_grants_of_traffic (by simp))
  | @answered reply _ _ hsend hrecv =>
    rcases learn_cases c reply with ⟨session, expiry, rfl, hlearn⟩ | ⟨hreply, hlearn⟩
    · rw [hlearn]
      refine .granted session expiry rfl (fun e he => by cases he) fun s e => ?_
      rw [Grants]
      simp [eq_comm]
    · rw [hlearn]
      refine .refused rfl ⟨reply, rfl⟩ ?_
      rintro session expiry ⟨-, hreceived⟩
      simp only [List.mem_cons, reduceCtorEq, Traffic.received.injEq, Except.ok.injEq, true_and,
        List.not_mem_nil, or_false, false_or] at hreceived
      exact hreply session expiry hreceived.symm

theorem effect_of_asked_heed {p q : Parcel} {c : Client} {t : τ}
    {outcome : Except Failure Message × Client × τ} {traffic : List Traffic}
    (h : Asked x q c.heed c t outcome traffic) :
    Effect ⟨.request p, c, outcome.1, outcome.2.1, traffic⟩ := by
  have hgrants := not_grants_of_operation ⟨.request p, c, outcome.1, outcome.2.1, traffic⟩
    fun _ => Operation.noConfusion
  cases h with
  | unsent hsend =>
    exact .kept rfl (not_refuses_of_result rfl (hx.ne_refused_of_send hsend)) hgrants
  | unanswered hsend hrecv =>
    exact .kept rfl (not_refuses_of_result rfl (hx.ne_refused_of_recv hrecv)) hgrants
  | @answered reply _ _ hsend hrecv =>
    rcases heed_cases c reply with hheed | hheed
    · rw [hheed] at hgrants ⊢
      exact .refused rfl ⟨reply, rfl⟩ hgrants
    · rw [hheed] at hgrants ⊢
      refine .kept rfl ?_ hgrants
      rintro ⟨_, he⟩
      cases he

/-- **Every transition keeps the client, grants a session or refuses one**, and does only one of
the three. -/
theorem effect_transition (op : Operation) (c : Client) (t : τ) :
    (op.transition x c t).Effect := by
  cases op with
  | authenticate token =>
    cases hr : greeting token c.name with
    | error e =>
      obtain ⟨hrun, htraffic⟩ := Operation.authenticate_of_greeting_error x hr t
      rw [Operation.transition, hrun, htraffic]
      exact .kept rfl (not_refuses_of_result rfl (greeting_ne_refused hr))
        (not_grants_of_traffic fun _ _ => List.not_mem_nil)
    | ok r => exact effect_of_asked_learn hx (Operation.asked_authenticate x hr t)
  | request p => exact effect_of_asked_heed hx (Operation.asked_request x p c t)
  | recv wait =>
    refine .kept rfl ?_ (not_grants_of_operation _ fun _ => Operation.noConfusion)
    rintro ⟨reply, hreply⟩
    exact hx.recv _ _ reply hreply

end Transition

/-! ## The session in force -/

/-- A session is in force after a run if it was granted, and since then nothing was refused and no
other session was granted. -/
def InForce (run : List Transition) (session : String) (expiry : Option UInt64) : Prop :=
  ∃ earlier step later, run = earlier ++ step :: later ∧ step.Grants session expiry ∧
    ∀ next ∈ later, ¬ next.Refuses ∧ ∀ s e, ¬ next.Grants s e

theorem not_inForce_nil (session : String) (expiry : Option UInt64) :
    ¬ InForce [] session expiry := by
  rintro ⟨earlier, step, later, hrun, -⟩
  exact List.append_ne_nil_of_right_ne_nil earlier (List.cons_ne_nil step later) hrun.symm

/-- **What is in force after one more transition**: the session it grants, or the one before, if the
transition neither refuses nor grants. -/
theorem inForce_concat_iff {run : List Transition} {step : Transition} {session : String}
    {expiry : Option UInt64} :
    InForce (run ++ [step]) session expiry ↔
      step.Grants session expiry ∨
        (InForce run session expiry ∧ ¬ step.Refuses ∧ ∀ s e, ¬ step.Grants s e) := by
  constructor
  · rintro ⟨earlier, granting, later, hrun, hgrants, hlater⟩
    rcases List.eq_nil_or_concat later with rfl | ⟨later, last, rfl⟩
    · obtain ⟨-, hstep⟩ := List.append_inj' hrun rfl
      rw [(List.cons.inj hstep).1]
      exact .inl hgrants
    · rw [List.concat_eq_append] at hrun hlater
      obtain ⟨rfl, hstep⟩ := List.append_inj' (hrun.trans (List.append_assoc _ (_ :: _) _).symm) rfl
      rw [(List.cons.inj hstep).1]
      refine .inr ⟨⟨earlier, granting, later, rfl, hgrants, fun next hnext => ?_⟩, ?_⟩
      · exact hlater next (List.mem_append_left _ hnext)
      · exact hlater last (List.mem_append_right _ (List.mem_singleton.2 rfl))
  · rintro (hgrants | ⟨⟨earlier, granting, later, rfl, hgrants, hlater⟩, hstep⟩)
    · exact ⟨run, step, [], rfl, hgrants, fun _ hnext => absurd hnext List.not_mem_nil⟩
    · refine ⟨earlier, granting, later ++ [step], ?_, hgrants, ?_⟩
      · rw [List.append_assoc, List.cons_append]
      · intro next hnext
        rcases List.mem_append.1 hnext with hnext | hnext
        · exact hlater next hnext
        · rw [List.mem_singleton.1 hnext]
          exact hstep

/-- A client holds what is in force after a run: that session with its expiry, or nothing. -/
structure Holds (c : Client) (run : List Transition) : Prop where
  inForce : ∀ session expiry, InForce run session expiry →
    c.session? = some session ∧ c.expiry? = expiry
  nothing : (∀ session expiry, ¬ InForce run session expiry) →
    c.session? = none ∧ c.expiry? = none

theorem holds_new (name : Datum) : Holds (new name) [] where
  inForce session expiry h := absurd h (not_inForce_nil session expiry)
  nothing _ := ⟨rfl, rfl⟩

theorem isSome_session?_of_expiry? {c : Client} (h : c.expiry?.isSome) : c.session?.isSome := by
  obtain ⟨name, _ | grant⟩ := c
  · cases h
  · rfl

namespace Holds

variable {c : Client} {run : List Transition} (h : Holds c run)

include h

/-- The session that a client holds is in force. -/
theorem exists_inForce {session : String} (hsession : c.session? = some session) :
    ∃ expiry, InForce run session expiry := by
  by_cases hforce : ∃ s e, InForce run s e
  · obtain ⟨s, e, hse⟩ := hforce
    have hs := (h.inForce s e hse).1
    rw [hsession] at hs
    cases hs
    exact ⟨e, hse⟩
  · have hnone := (h.nothing fun s e hse => hforce ⟨s, e, hse⟩).1
    rw [hsession] at hnone
    cases hnone

/-- **One transition.**  A client that holds what is in force holds it after the transition. -/
theorem step {step : Transition} (hbefore : step.before = c) (heffect : step.Effect) :
    Holds step.after (run ++ [step]) := by
  cases heffect with
  | kept hafter hrefuses hgrants =>
    have hiff : ∀ s e, InForce (run ++ [step]) s e ↔ InForce run s e := fun s e =>
      inForce_concat_iff.trans
        ⟨fun hs => hs.elim (fun hg => absurd hg (hgrants s e)) fun hs => hs.1,
          fun hs => .inr ⟨hs, hrefuses, hgrants⟩⟩
    rw [hafter, hbefore]
    exact ⟨fun s e hs => h.inForce s e ((hiff s e).1 hs),
      fun hs => h.nothing fun s e hse => hs s e ((hiff s e).2 hse)⟩
  | granted session expiry hafter hresult hgrants =>
    have hforce : InForce (run ++ [step]) session expiry :=
      inForce_concat_iff.2 (.inl ((hgrants session expiry).2 ⟨rfl, rfl⟩))
    refine ⟨fun s e hs => ?_, fun hs => absurd hforce (hs session expiry)⟩
    rcases inForce_concat_iff.1 hs with hg | ⟨-, -, hnone⟩
    · obtain ⟨rfl, rfl⟩ := (hgrants s e).1 hg
      rw [session?, expiry?, hafter]
      exact ⟨rfl, rfl⟩
    · exact absurd ((hgrants session expiry).2 ⟨rfl, rfl⟩) (hnone session expiry)
  | refused hafter hrefuses hgrants =>
    refine ⟨fun s e hs => ?_, fun _ => ?_⟩
    · rcases inForce_concat_iff.1 hs with hg | ⟨-, hnot, -⟩
      · exact absurd hg (hgrants s e)
      · exact absurd hrefuses hnot
    · rw [session?, expiry?, hafter]
      exact ⟨rfl, rfl⟩

end Holds

/-! ## The parcel that is sent -/

theorem sent_request (x : Exchange τ) (p : Parcel) (c : Client) (t : τ) :
    ((Operation.request p).transition x c t).sent = [c.stamp p] :=
  (Operation.asked_request x p c t).filterMap_sent?

/-- Stamping leaves alone what carries a token, what has no place for one, and everything where no
session is held. -/
theorem stamp_eq_self {c : Client} {p : Parcel}
    (h : p.session?.isSome ∨ p.gated = false ∨ c.session? = none) : c.stamp p = p := by
  unfold stamp
  split
  · next session r hc hp =>
    rcases h with h | h | h
    · rw [hp] at h
      cases h
    · cases r with
      | authenticate token clientName => rfl
      | _ => cases h
    · rw [hc] at h
      cases h
  · rfl

theorem stamp_of_session {c : Client} {r : Request} {session : String} (hr : r.session? = none)
    (hc : c.session? = some session) :
    c.stamp (.message (.request r)) = .message (.request (r.withSession (some session))) := by
  have hp : (Parcel.message (.request r)).session? = none := hr
  unfold stamp
  rw [hc, hp]

/-- A token that the caller has not put in is the one that is held. -/
theorem session?_of_stamp {c : Client} {p : Parcel} {session : String} (hp : p.session? = none)
    (hs : (c.stamp p).session? = some session) : c.session? = some session := by
  cases hc : c.session? with
  | none =>
    rw [stamp_eq_self (.inr (.inr hc)), hp] at hs
    cases hs
  | some held =>
    cases hgated : p.gated with
    | false =>
      rw [stamp_eq_self (.inr (.inl hgated)), hp] at hs
      cases hs
    | true =>
      obtain ⟨r, rfl⟩ : ∃ r, p = .message (.request r) := by
        cases p with
        | message m =>
          cases m with
          | request r => exact ⟨r, rfl⟩
          | _ => cases hgated
        | _ => cases hgated
      rw [stamp_of_session hp hc] at hs
      exact (Request.session?_withSession hgated (some held)).symm.trans hs

/-! ## Runs -/

/-- What a transition after others does to the client, and what it sends. -/
structure Transition.Follows (earlier : List Transition) (step : Transition) : Prop where
  /-- The client holds what is in force. -/
  held : Holds step.before earlier
  /-- An expiry comes with a session. -/
  expiry : step.before.expiry?.isSome → step.before.session?.isSome
  /-- A refusal takes the session away. -/
  refused : ∀ reply, step.result = .error (.refused reply) →
    step.after.session? = none ∧ step.after.expiry? = none
  /-- Every other failure leaves the client as it is. -/
  failed : ∀ e, step.result = .error e → (∀ reply, e ≠ .refused reply) → step.after = step.before
  /-- So does a wait, whatever is received. -/
  received : ∀ wait, step.operation = .recv wait → step.after = step.before
  /-- A parcel is sent as it is if it carries a token, has no place for one, or none is held. -/
  verbatim : ∀ p, step.operation = .request p →
    p.session?.isSome ∨ p.gated = false ∨ step.before.session? = none → step.sent = [p]
  /-- Any other request is sent with the token that is held, and otherwise as it is. -/
  stamped : ∀ r s, step.operation = .request (.message (.request r)) → r.gated = true →
    r.session? = none → step.before.session? = some s →
    ∃ q, step.sent = [.message (.request q)] ∧ q.session? = some s ∧
      q.variant.tag = r.variant.tag ∧
      q.variant.values = r.variant.values.map fun e =>
        if e.1 = sessionField.name then (e.1, .text (Text.ofString s)) else e
  /-- A token that the caller has not put in is in force. -/
  issued : ∀ p q s, step.operation = .request p → q ∈ step.sent → p.session? = none →
    q.session? = some s → ∃ e, InForce earlier s e

section Run

variable {x : Exchange τ} (hx : x.NeverRefuses)

include hx

/-- Every transition after others does as it should, if the client holds what is in force. -/
theorem Operation.follows_transition (op : Operation) {c : Client} (t : τ)
    {earlier : List Transition} (h : Holds c earlier) :
    (op.transition x c t).Follows earlier where
  held := h
  expiry := isSome_session?_of_expiry?
  refused reply hreply := by
    cases Transition.effect_transition hx op c t with
    | kept hafter hrefuses hgrants => exact absurd ⟨reply, hreply⟩ hrefuses
    | granted s e hafter hresult hgrants => exact absurd hreply (hresult _)
    | refused hafter hrefuses hgrants =>
      rw [session?, expiry?, hafter]
      exact ⟨rfl, rfl⟩
  failed e he hnot := by
    cases Transition.effect_transition hx op c t with
    | kept hafter hrefuses hgrants => exact hafter
    | granted s e hafter hresult hgrants => exact absurd he (hresult _)
    | refused hafter hrefuses hgrants =>
      exact absurd hrefuses (Transition.not_refuses_of_result he hnot)
  received wait hop := by
    cases hop
    rfl
  verbatim p hop hp := by
    cases hop
    have hself : c.stamp p = p := stamp_eq_self hp
    rw [sent_request, hself]
  stamped r s hop hr hnone hs := by
    cases hop
    refine ⟨r.withSession (some s), ?_, Request.session?_withSession hr (some s),
      r.tag_withSession (some s), Request.values_withSession hr (some s)⟩
    have hstamp := stamp_of_session (c := c) hnone hs
    rw [sent_request, hstamp]
  issued p q s hop hq hp hs := by
    cases hop
    rw [sent_request, List.mem_singleton] at hq
    rw [hq] at hs
    exact h.exists_inForce (session?_of_stamp hp hs)

/-- **A whole run.**  A client that holds what is in force before a run does so at its end. -/
theorem holds_finish (ops : List Operation) {c : Client} (t : τ) {earlier : List Transition}
    (h : Holds c earlier) :
    Holds (finish x ops c t).1 (earlier ++ trace x ops c t) := by
  induction ops generalizing c t earlier with
  | nil =>
    rw [trace, List.append_nil]
    exact h
  | cons op ops ih =>
    rw [trace, List.append_cons]
    exact ih _ (h.step rfl (Transition.effect_transition hx op c t))

/-- Every transition of a run does as it should after those before it. -/
theorem follows_of_trace_eq (ops : List Operation) {c : Client} (t : τ)
    {earlier before later : List Transition} {step : Transition} (h : Holds c earlier)
    (hrun : trace x ops c t = before ++ step :: later) : step.Follows (earlier ++ before) := by
  induction ops generalizing c t earlier before with
  | nil =>
    exact absurd hrun.symm
      (List.append_ne_nil_of_right_ne_nil before (List.cons_ne_nil step later))
  | cons op ops ih =>
    rw [trace] at hrun
    cases before with
    | nil =>
      rw [List.append_nil, ← (List.cons.inj hrun).1]
      exact op.follows_transition hx t h
    | cons first before =>
      obtain ⟨rfl, hrest⟩ := List.cons.inj hrun
      rw [List.append_cons]
      exact ih _ (h.step rfl (Transition.effect_transition hx op c t)) hrest

/-- **A client holds the session that the run behind it puts in force.**  Over an exchange that may
deliver any message and fail in any way of its own at every turn, a client that starts without a
session holds at every point of a run, and at its end, the session granted last, with its expiry, if
nothing was refused since, and neither of the two otherwise.  No other failure and no wait changes
them.  A request is sent as it is or with the token that is in force. -/
theorem session_of_run (name : Datum) (ops : List Operation) (t : τ) :
    let run := trace x ops (new name) t
    Holds (finish x ops (new name) t).1 run ∧
      ∀ earlier step later, run = earlier ++ step :: later → step.Follows earlier := by
  refine ⟨?_, fun earlier step later hrun => ?_⟩
  · exact holds_finish hx ops t (holds_new name)
  · exact follows_of_trace_eq hx ops t (holds_new name) hrun

end Run

end Client

/-- An exchange that takes every parcel and delivers the messages of a list; where the list has
none, nothing comes in time. -/
def Exchange.scripted : Exchange (List (Option Message)) where
  send _ script := (.ok (), script)
  recv
    | wait, [] => (.error (.timeout wait), [])
    | wait, none :: script => (.error (.timeout wait), script)
    | _, some m :: script => (.ok m, script)

theorem Exchange.neverRefuses_scripted : scripted.NeverRefuses where
  send _ _ _ h := by cases h
  recv wait script reply h := by
    unfold scripted at h
    dsimp only at h
    split at h <;> cases h

/-- A client is granted a session and puts its token into the next request, which is not answered
in time.  The token stays until the session has expired; the last request is sent without it. -/
theorem Client.session_of_run_scripted :
    let ops : List Operation :=
      [.authenticate (.text (Text.ofString "secret")),
        .request (.message (.request (.reload none))),
        .request (.message (.request (.reloadNum 1 none))),
        .request (.message (.request (.reload none)))]
    let script : List (Option Message) :=
      [some (.notice (.authResult true (some "token") (some 60))), none,
        some (.notice .sessionExpired), some (.ack .ok)]
    let run := trace .scripted ops (new .null) script
    Exchange.scripted.NeverRefuses ∧
      run.flatMap Transition.sent =
        [.message (.request (.authenticate "secret" none)),
          .message (.request (.reload (some "token"))),
          .message (.request (.reloadNum 1 (some "token"))), .message (.request (.reload none))] ∧
      Holds (finish .scripted ops (new .null) script).1 run ∧
      ∀ earlier step later, run = earlier ++ step :: later → step.Follows earlier := by
  refine ⟨Exchange.neverRefuses_scripted, ?_, ?_⟩
  · rfl
  · exact session_of_run Exchange.neverRefuses_scripted .null _ _

end KeyControl
